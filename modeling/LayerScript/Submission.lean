/-
`Submission.lean` -- sending a request to a remote trainer.

An address names a scheme, and only the two of the web that carry documents can be
sent to. Whether a request may leave the program at all is settled here; what comes of one
that may is for the trainer to say (`Programs`).
-/
import LayerScript.Address.Reader
import LayerScript.Programs

set_option autoImplicit false

namespace LayerScript

/-! ## 1. Refusals -/

/-- Why a request was not sent, or came to nothing. -/
inductive SubmissionError where
  | noAddress
  | invalidAddress (fault : Address.Fault)
  | schemeNotAllowed (address : Address)
  | notAnswered (fault : RequestFault)
deriving DecidableEq, Repr

namespace SubmissionError

/-- What became of the request, if there was one. -/
def request? : SubmissionError → Option RequestFault
  | .noAddress => none
  | .invalidAddress fault => some ⟨"builder error", [fault.message]⟩
  | .schemeNotAllowed address =>
    some ⟨"builder error for url (" ++ address.text ++ ")", ["URL scheme is not allowed"]⟩
  | .notAnswered fault => some fault

/-- The text of a fault. -/
def message (e : SubmissionError) : String :=
  match e.request? with
  | none => "no trainer url configured"
  | some fault => "trainer request failed: " ++ fault.text

/-- The texts of the faults that a fault was caused by. -/
def causes (e : SubmissionError) : List String :=
  match e.request? with
  | none => []
  | some fault => fault.text :: fault.causes

/-- The text of a fault, followed by those of the faults it was caused by. -/
def chain (e : SubmissionError) : String :=
  ": ".intercalate (e.message :: e.causes)

end SubmissionError

/-! ## 2. Sending -/

/-- The schemes that a request can be sent to. -/
def documentSchemes : List String := ["http", "https"]

/-- The address that a request is sent to. The user and password of an address belong to the
request and are not shown with it. -/
def sendingAddress (text : String) : Except SubmissionError Address :=
  match Address.ofText text with
  | .error fault => .error (.invalidAddress fault)
  | .ok address =>
    if address.scheme ∈ documentSchemes then .ok address
    else .error (.schemeNotAllowed address.withoutCredentials)

/-- Sends a document to an address, if there is one. Gives the text of the address with the
answer. -/
def send (programs : Programs) (address : Option String) (document : Value) :
    Except SubmissionError (String × Response) :=
  match address with
  | none => .error .noAddress
  | some text => do
    let destination ← sendingAddress text
    let response ← (programs.post destination document).mapError .notAnswered
    .ok (text, response)

end LayerScript
