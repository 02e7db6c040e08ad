import Brunomnia.Library.Splitting
import Brunomnia.OAuthCallback.Listener

/-!
# Credentials from a netrc text

A netrc text has entries for machines and default entries, each with its fields. The client cuts
the comments off the lines, splits the rest into tokens and scans them for the host of a request.
The texts that spell given entries are described apart from the scan.
-/

namespace Brunomnia.Netrc

open Codegen (Text)
open Library
open Multipart (isRustWhitespace)
open OAuthCallback (splitWhitespace)
open Streaming (textLines)

def machineWord : Text := "machine".toList

def defaultWord : Text := "default".toList

def loginWord : Text := "login".toList

def passwordWord : Text := "password".toList

def accountWord : Text := "account".toList

/-! ## The scan -/

/-- `line.split('#').next()` -/
def withoutComment (line : Text) : Text :=
  line.takeWhile (· ≠ '#')

def netrcTokens (source : Text) : List Text :=
  splitWhitespace (List.intercalate [' '] ((textLines source).map withoutComment))

structure ScannedFields where
  login : Option Text
  password : Option Text
  remaining : List Text

/-- The inner loop: the fields up to the next entry. A field at the end has no value. -/
def scanFields (tokens : List Text) (login password : Option Text) : ScannedFields :=
  match tokens with
  | [] => ⟨login, password, []⟩
  | token :: rest =>
      if token = machineWord ∨ token = defaultWord then ⟨login, password, token :: rest⟩
      else if token = loginWord then scanFields (rest.drop 1) rest.head? password
      else if token = passwordWord then scanFields (rest.drop 1) login rest.head?
      else scanFields rest login password
termination_by tokens.length
decreasing_by all_goals simp +arith

theorem remaining_length_le (tokens : List Text) (login password : Option Text) :
    (scanFields tokens login password).remaining.length ≤ tokens.length := by
  fun_induction scanFields tokens login password with
  | case1 => exact le_rfl
  | case2 => exact le_rfl
  | case3 _ _ _ _ ih =>
      rw [List.length_drop] at ih
      rw [List.length_cons]
      omega
  | case4 _ _ _ _ _ ih =>
      rw [List.length_drop] at ih
      rw [List.length_cons]
      omega
  | case5 _ _ _ _ _ ih =>
      rw [List.length_cons]
      omega

/-- The outer loop, which ends for every list of tokens, since every turn takes at least one. -/
def scanEntries (hostname : Text) (tokens : List Text) (fallback : Option (Text × Text)) :
    Option (Text × Text) :=
  match tokens with
  | [] => fallback
  | token :: rest =>
      let isDefault := token = defaultWord
      let isHost := token = machineWord ∧ rest.head? = some hostname
      let fields := scanFields (rest.drop (if isDefault then 0 else 1)) none none
      match fields.login, fields.password with
      | some login, some password =>
          if isHost ∧ ¬ isDefault then some (login, password)
          else scanEntries hostname fields.remaining
            (if isDefault then some (login, password) else fallback)
      | _, _ => scanEntries hostname fields.remaining fallback
termination_by tokens.length
decreasing_by
  all_goals
    apply lt_of_le_of_lt (remaining_length_le _ _ _)
    rw [List.length_drop, List.length_cons]
    omega

def netrcCredentials (source hostname : Text) : Option (Text × Text) :=
  scanEntries hostname (netrcTokens source) none

/-! ## Entries and their texts -/

/-- A token is not blank and has no blanks. -/
structure Token where
  text : Text
  isWord : IsWord isRustWhitespace text

inductive Field where
  | login (value : Token)
  | password (value : Token)
  | account (value : Token)

/-- A default entry has no host. -/
structure Entry where
  host : Option Token
  fields : List Field

def Field.tokens : Field → List Text
  | .login value => [loginWord, value.text]
  | .password value => [passwordWord, value.text]
  | .account value => [accountWord, value.text]

def Entry.tokens (entry : Entry) : List Text :=
  (match entry.host with
    | some host => [machineWord, host.text]
    | none => [defaultWord]) ++ entry.fields.flatMap Field.tokens

/-- A text spells tokens with blanks between them and with comment lines. The flags tell whether
only blanks precede in the line, and whether a token may start here. -/
inductive Spells : Bool → Bool → List Text → Text → Prop
  | finish {fresh parted : Bool} : Spells fresh parted [] []
  | blank {fresh parted : Bool} {tokens : List Text} {letter : Char} {rest : Text}
      (isBlank : isRustWhitespace letter = true)
      (later : Spells (letter = '\n' || fresh) true tokens rest) :
      Spells fresh parted tokens (letter :: rest)
  | comment {parted : Bool} {tokens : List Text} {comment rest : Text} (oneLine : '\n' ∉ comment)
      (later : Spells true true tokens rest) :
      Spells true parted tokens ('#' :: comment ++ '\n' :: rest)
  | lastComment {parted : Bool} {comment : Text} (oneLine : '\n' ∉ comment) :
      Spells true parted [] ('#' :: comment)
  | token {fresh : Bool} {tokens : List Text} {token rest : Text}
      (isWord : IsWord isRustWhitespace token) (later : Spells false false tokens rest) :
      Spells fresh true (token :: tokens) (token ++ rest)

def IsNetrc (entries : List Entry) (source : Text) : Prop :=
  Spells true true (entries.flatMap Entry.tokens) source

/-! ## What is expected -/

def Field.login? : Field → Option Text
  | .login value => some value.text
  | _ => none

def Field.password? : Field → Option Text
  | .password value => some value.text
  | _ => none

/-- The login and the password of a complete entry. -/
def Entry.credentials (entry : Entry) : Option (Text × Text) :=
  match (entry.fields.filterMap Field.login?).getLast?,
      (entry.fields.filterMap Field.password?).getLast? with
  | some login, some password => some (login, password)
  | _, _ => none

def Entry.IsFor (entry : Entry) (hostname : Text) : Prop :=
  entry.host.map Token.text = some hostname

instance (entry : Entry) (hostname : Text) : Decidable (entry.IsFor hostname) :=
  inferInstanceAs (Decidable (_ = _))

/-- The first complete entry for the host, or else the last complete default entry. -/
def lookup (entries : List Entry) (hostname : Text) : Option (Text × Text) :=
  (entries.findSome? fun entry => if entry.IsFor hostname then entry.credentials else none).or
    (entries.filterMap fun entry =>
      if entry.host.isNone then entry.credentials else none).getLast?

end Brunomnia.Netrc
