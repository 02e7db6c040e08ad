import Brunomnia.Postman.Requests

/-!
# Postman collections

The items of a collection are walked in their order. A folder hands its name, its events and its
authentication down to its items, and every other item that has a request becomes one. How values
are written as JSON is a parameter.
-/

namespace Brunomnia.Postman

open Codegen (Text trimText upperText)

/-! ## Scripts -/

/-- What a rewritten word is followed by: anything, the end of a word, `\s*\(`, or `\s*\(\s*\)`. -/
inductive Ending where
  | plain
  | word
  | call
  | emptyCall

/-- The number of letters that belong to the ending, if it is there. -/
def endingLength : Ending → Text → Option ℕ
  | .plain, _ => some 0
  | .word, rest => if rest.head?.any isWordLetter then none else some 0
  | .call, rest =>
      let blank := (rest.takeWhile isWhiteSpace).length
      if (rest.drop blank).head? = some '(' then some (blank + 1) else none
  | .emptyCall, rest =>
      let blank := (rest.takeWhile isWhiteSpace).length
      let inner := (rest.drop (blank + 1)).takeWhile isWhiteSpace
      if (rest.drop blank).head? = some '(' ∧
          (rest.drop (blank + 1 + inner.length)).head? = some ')' then
        some (blank + 1 + inner.length + 1)
      else none

/-- A match has a length and a replacement. The letter before the text is given. -/
abbrev Rewrite := Option Char → Text → Option (ℕ × Text)

/-- A word, at the start of a word if that is asked for, is replaced with its ending. -/
def rewriteWord (word : String) (atWord : Bool) (ending : Ending) (replacement : String) :
    Rewrite := fun before text =>
  if word.toList <+: text ∧ ¬ (atWord ∧ before.any isWordLetter) then
    (endingLength ending (text.drop word.toList.length)).map fun length =>
      (word.toList.length + length, replacement.toList)
  else none

/-- `/pm\.response\.to\.have\.status\s*\(([^)]+)\)\s*;?/` -/
def rewriteStatus : Rewrite := fun _ text =>
  let word := "pm.response.to.have.status".toList
  if word <+: text then
    (endingLength .call (text.drop word.length)).bind fun opened =>
      let behind := text.drop (word.length + opened)
      let status := behind.takeWhile fun letter => letter ≠ ')'
      let closed := behind.dropWhile fun letter => letter ≠ ')'
      let blank := (closed.tail.takeWhile isWhiteSpace).length
      let semicolon := if (closed.tail.drop blank).head? = some ';' then 1 else 0
      if status = [] ∨ closed = [] then none
      else some (word.length + opened + status.length + 1 + blank + semicolon,
        "insomnia.expect(insomnia.response.status).toBe(".toList ++ status ++ ");".toList)
  else none

/-- Replace every match; the letters of the last one are skipped. -/
def rewriteFrom (rewrite : Rewrite) : ℕ → Option Char → Text → Text
  | _, _, [] => []
  | skipped + 1, _, letter :: rest => rewriteFrom rewrite skipped (some letter) rest
  | 0, before, letter :: rest =>
      match rewrite before (letter :: rest) with
      | some (length, replacement) =>
          replacement ++ rewriteFrom rewrite (length - 1) (some letter) rest
      | none => letter :: rewriteFrom rewrite 0 (some letter) rest

/-- The replacements, in their order. -/
def scriptRewrites : List Rewrite :=
  [rewriteWord "pm.test" true .call "insomnia.test(",
    rewriteStatus,
    rewriteWord "pm.environment." true .plain "insomnia.environment.",
    rewriteWord "pm.collectionVariables." true .plain "insomnia.collectionVariables.",
    rewriteWord "pm.globals." true .plain "insomnia.globals.",
    rewriteWord "pm.variables." true .plain "insomnia.variables.",
    rewriteWord "pm.iterationData." true .plain "insomnia.iterationData.",
    rewriteWord "pm.vault." true .plain "insomnia.vault.",
    rewriteWord "pm.execution." true .plain "insomnia.execution.",
    rewriteWord "postman.setNextRequest" true .call "insomnia.execution.setNextRequest(",
    rewriteWord "pm.sendRequest" true .call "insomnia.sendRequest(",
    rewriteWord "pm.response.code" true .word "insomnia.response.status",
    rewriteWord "pm.response.responseTime" true .word "insomnia.response.responseTime",
    rewriteWord "pm.response.json" true .emptyCall "insomnia.response.json()",
    rewriteWord "pm.request.headers.add" true .call "insomnia.request.addHeader(",
    rewriteWord "pm.request.headers.remove" true .call "insomnia.request.removeHeader(",
    rewriteWord "pm.request.headers.get" true .call "insomnia.request.getHeader(",
    rewriteWord "pm.request.headers.has" true .call "insomnia.request.hasHeader(",
    rewriteWord "pm.response." true .plain "insomnia.response.",
    rewriteWord "pm.request." true .plain "insomnia.request.",
    rewriteWord "pm.expect" true .call "insomnia.expect("]

def translatePostmanScript (source : String) : String :=
  String.ofList (scriptRewrites.foldl
    (fun text rewrite => rewriteFrom rewrite 0 none text) source.toList)

def scriptText (event : Json) : String :=
  joined "\n" (member (asRecord (event.get? "script")) "exec")

def eventsScript (eventSources : List (Option Json)) (listen : String) : String :=
  let scripts := (((eventSources.flatMap asArray).filter fun event =>
    event.isObject && event.get? "listen" = some (.str listen)).map scriptText).filter (· ≠ "")
  if scripts = [] then "" else translatePostmanScript ("\n\n".intercalate scripts)

/-! ## Requests -/

structure ApiRequest where
  id : String
  name : String
  method : String
  url : Text
  pathParams : List KeyValue
  params : List KeyValue
  headers : List KeyValue
  body : RequestBody
  auth : RequestAuth
  preRequestScript : String
  tests : String

def isMethodLetter (letter : Char) : Bool :=
  letter.isDigit || letter.isUpper || letter ∈ "!#$%&'*+.^_\x60|~-".toList

def normalizeMethod (value : Option Json) : String :=
  let method := upperText (trimText (asStringOr "GET" value).toList)
  if method ≠ [] ∧ method.length ≤ 32 ∧ method.all isMethodLetter then String.ofList method
  else "GET"

/-- What the folders hand down. -/
structure Inherited where
  path : List String
  events : List (Option Json)
  auth : Option Json

def identityOf (item : Json) (path : List String) (index : ℕ) : String :=
  asStringOr ("/".intercalate path ++ "/" ++ item.text "name" ++ "/" ++ toString index)
    (item.get? "id")

def postmanRequest (stringify : Json → String) (item : Json) (inherited : Inherited) (index : ℕ) :
    Option ApiRequest :=
  match asRecord (item.get? "request") with
  | none => none
  | some raw =>
      let id := sourceId "request" postmanFormat (identityOf item inherited.path index) index
      let url := asRecord (raw.get? "url")
      let headers := postmanHeaders (raw.get? "header") (id ++ "-header")
      let body := applyPostmanBody stringify id (raw.get? "body")
      let events := inherited.events ++ [item.get? "event"]
      some
        { id := id
          name := " / ".intercalate (inherited.path ++
            [asStringOr ("Request " ++ toString (index + 1)) (item.get? "name")])
          method := if body.graphql.isSome then "POST" else normalizeMethod (raw.get? "method")
          url := importedUrl (raw.get? "url")
          pathParams := keyValues (member url "variable") (id ++ "-path")
          params := keyValues (member url "query") (id ++ "-query")
          headers := headers ++ contentTypeRows id headers body.contentType
          body := body
          auth := applyPostmanAuth (orElse (raw.get? "auth") inherited.auth)
          preRequestScript := eventsScript events "prerequest"
          tests := eventsScript events "test" }

/-! ## Items -/

theorem sizeOf_lt_of_lookup {members : List (String × Json)} {key : String} {value : Json}
    (found : members.lookup key = some value) : sizeOf value < sizeOf members := by
  induction members with
  | nil => exact absurd found (by simp)
  | cons entry rest ih =>
      rw [Json.lookup_cons_ite] at found
      rcases entry with ⟨ownKey, own⟩
      split at found
      case isTrue =>
        rw [← Option.some.inj found]
        simp only [List.cons.sizeOf_spec, Prod.mk.sizeOf_spec]
        omega
      case isFalse =>
        have below := ih found
        simp only [List.cons.sizeOf_spec]
        omega

theorem sizeOf_lt_of_get? {value : Json} {key : String} {children : List Json}
    (found : value.get? key = some (.arr children)) : sizeOf children < sizeOf value := by
  cases value with
  | obj members =>
      have below := @sizeOf_lt_of_lookup members key _ found
      simp only [Json.arr.sizeOf_spec, Json.obj.sizeOf_spec] at below ⊢
      omega
  | _ => exact absurd found (by simp [Json.get?, Json.members])

/-- A folder hands down its own parts. -/
def Inherited.enter (inherited : Inherited) (folder : Json) : Inherited where
  path := inherited.path ++ [asStringOr "Folder" (folder.get? "name")]
  events := inherited.events ++ [folder.get? "event"]
  auth := orElse (folder.get? "auth") inherited.auth

/-- The requests of the items are put behind those that are there. Values that are no records have
neither items nor a request. -/
def walkPostmanItems (stringify : Json → String) (items : List Json) (inherited : Inherited)
    (output : List ApiRequest) : List ApiRequest :=
  match items with
  | [] => output
  | item :: rest =>
      match _isFolder : item.get? "item" with
      | some (.arr children) =>
          walkPostmanItems stringify rest inherited
            (walkPostmanItems stringify children (inherited.enter item) output)
      | _ =>
          walkPostmanItems stringify rest inherited
            (output ++ (postmanRequest stringify item inherited output.length).toList)
termination_by sizeOf items
decreasing_by
  · have below := sizeOf_lt_of_get? _isFolder
    simp only [List.cons.sizeOf_spec]
    omega
  · simp only [List.cons.sizeOf_spec]
    omega
  · simp only [List.cons.sizeOf_spec]
    omega

/-! ## Collections -/

structure Collection where
  id : String
  name : String
  requests : List ApiRequest
  environment : List KeyValue

/-- The name of a file without its folders and its last extension. -/
def fileStem (sourceName : String) : String :=
  let letters := sourceName.toList
  let firstLine := letters.takeWhile fun letter =>
    letter ≠ '\n' && letter ≠ '\r' && letter.toNat ≠ 8232 && letter.toNat ≠ 8233
  let behind := (firstLine.reverse.takeWhile fun letter => letter ≠ '/' && letter ≠ '\\').reverse
  let base := behind ++ letters.drop firstLine.length
  let ending := base.reverse.takeWhile fun letter => letter ≠ '.'
  let stem :=
    if ending ≠ [] ∧ '.' ∈ base then base.take (base.length - ending.length - 1) else base
  orText (String.ofList stem) "Imported API"

def importPostman (stringify : Json → String) (sourceName : String) (document : Json) :
    Collection :=
  let info := asRecord (document.get? "info")
  { id := sourceId "collection" postmanFormat
      (asStringOr sourceName (member info "_postman_id")) 0
    name := asStringOr (fileStem sourceName) (member info "name")
    requests := walkPostmanItems stringify (asArray (document.get? "item"))
      ⟨[], [document.get? "event"], document.get? "auth"⟩ []
    environment := keyValues (document.get? "variable") "postman-variable" }

end Brunomnia.Postman
