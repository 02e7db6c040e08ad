import Brunomnia.SerdeJson

/-!
# Messages of an MCP server over STDIO

Client and server write one JSON-RPC message a line. A message with an identity and a method is a
request, one with an identity alone a response. The client answers most requests of the server at
once and holds those that need a person's review.
-/

namespace Brunomnia.McpStdio

open Serde

def maxSessionKeyBytes : ℕ := 512

def maxServerRequests : ℕ := 100

/-- The limit of `respond_server_request` on an encoded response. -/
def maxResponseBytes : ℕ := 1000000

def serverRequestIdKey (value : Value) : Except String String :=
  if ¬ value.isString ∧ ¬ value.isNumber then
    .error "MCP server request IDs must be strings or numbers."
  else .ok value.text

def methodOf (value : Value) : Option String :=
  (value.get "method").bind Value.asStr

def isReviewableServerRequest (method : String) : Bool :=
  method = "elicitation/create" || method = "sampling/createMessage"

/-- What is sent back at once; a reviewable request has no such response. -/
def serverRequestResponse (value : Value) (roots : List String) (allowReview : Bool) :
    Option Value := do
  let id ← value.get "id"
  let method ← methodOf value
  if method = "roots/list" then
    return .object [("id", id), ("jsonrpc", .string "2.0"),
      ("result", .object [("roots", .array (roots.map fun uri =>
        .object [("name", .string uri), ("uri", .string uri)]))])]
  if allowReview ∧ isReviewableServerRequest method then none
  else
    return .object [("error", .object [("code", .integer (-32601)),
        ("message", .string
          ("Brunomnia requires interactive approval UI before handling " ++ method ++ "."))]),
      ("id", id), ("jsonrpc", .string "2.0")]

def tooManyPending (id : Value) : Value :=
  .object [("error", .object [("code", .integer (-32000)),
      ("message", .string "Brunomnia has too many pending reviewed MCP server requests.")]),
    ("id", id), ("jsonrpc", .string "2.0")]

/-- The key of the request that a message cancels. -/
def cancelledKey (value : Value) : Option String := do
  if methodOf value = some "notifications/cancelled" then
    let params ← value.get "params"
    let requestId ← params.get "requestId"
    (serverRequestIdKey requestId).toOption
  else none

def responseResult (value : Value) : Except String Value :=
  match value.get "error" with
  | some error => .error ("The MCP server returned an error: " ++ error.text)
  | none =>
      match value.get "result" with
      | some result => .ok result
      | none => .error "The MCP response has no result."

structure ServerResponseError where
  code : ℤ
  message : String
  data : Option Value

def ServerResponseError.toValue (error : ServerResponseError) : Value :=
  .object [("code", .integer error.code), ("data", error.data.getD .null),
    ("message", .string error.message)]

structure ServerResponseInput where
  sessionKey : String
  serverRequestId : Value
  result : Option Value
  error : Option ServerResponseError

def ServerResponseInput.response (input : ServerResponseInput) : Value :=
  match input.result with
  | some result =>
      .object [("id", input.serverRequestId), ("jsonrpc", .string "2.0"), ("result", result)]
  | none =>
      .object [("error", (input.error.map ServerResponseError.toValue).getD .null),
        ("id", input.serverRequestId), ("jsonrpc", .string "2.0")]

def ServerResponseInput.encodedBytes (input : ServerResponseInput) : ℕ :=
  input.response.text.utf8ByteSize

def clientRequest (id : ℕ) (method : String) (params : Value) : Value :=
  .object [("id", .integer id), ("jsonrpc", .string "2.0"), ("method", .string method),
    ("params", params)]

def cancelNotification (id : ℕ) : Value :=
  .object [("jsonrpc", .string "2.0"), ("method", .string "notifications/cancelled"),
    ("params", .object [("reason", .string "Canceled by user."), ("requestId", .integer id)])]

theorem serverRequestIdKey_eq_ok {value : Value} {key : String} :
    serverRequestIdKey value = .ok key ↔
      (value.isString = true ∨ value.isNumber = true) ∧ value.text = key := by
  simp only [serverRequestIdKey]
  split
  case isTrue neither => simp [neither]
  case isFalse either =>
      simp only [Except.ok.injEq, iff_and_self]
      intro _
      simp only [Bool.not_eq_true, not_and, Bool.not_eq_false] at either
      cases isString : value.isString with
      | true => exact .inl rfl
      | false => exact .inr (either isString)

theorem eq_integer_of_key {value : Value} {id : ℕ}
    (key_eq : serverRequestIdKey value = .ok (Value.integer id).text) :
    value = Value.integer id := by
  rcases serverRequestIdKey_eq_ok.mp key_eq with ⟨isIdentity, sameText⟩
  exact Value.eq_integer_of_text isIdentity sameText

end Brunomnia.McpStdio
