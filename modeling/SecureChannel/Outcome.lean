/-!
# Outcomes

How one inbound message was dealt with, in words that every transport can map onto status codes of
its own.
-/

namespace SecureChannel

/-- The result of handling one inbound message. -/
inductive Outcome
  | success
  /-- The envelope, identifier or frame is malformed. -/
  | badRequest
  /-- The channel is unknown, authentication failed, or the handshake was rejected. -/
  | unauthorized
  /-- The server failed in a way that the request does not account for. -/
  | internalError
deriving DecidableEq

namespace Outcome

def all : List Outcome := [success, badRequest, unauthorized, internalError]

def describe : Outcome → String
  | success => "success"
  | badRequest => "bad request"
  | unauthorized => "unauthorized"
  | internalError => "internal error"

def wireName : Outcome → String
  | success => "success"
  | badRequest => "bad_request"
  | unauthorized => "unauthorized"
  | internalError => "internal_error"

def name : Outcome → String
  | success => "Success"
  | badRequest => "BadRequest"
  | unauthorized => "Unauthorized"
  | internalError => "InternalError"

def ofWireName? (text : String) : Option Outcome :=
  all.find? fun outcome => outcome.wireName = text

def isSuccess (outcome : Outcome) : Bool := outcome = success

@[simp] theorem ofWireName?_wireName (outcome : Outcome) :
    ofWireName? outcome.wireName = some outcome := by
  cases outcome <;> rfl

end Outcome

end SecureChannel
