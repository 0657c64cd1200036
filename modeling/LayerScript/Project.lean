/-
`Project.lean` -- a request: what a payload asks for, and what is generated for it.

A payload holds a training configuration, a network and a data set. It is bound
to a project piece by piece, and the first piece that does not fit is reported.
Everything generated for a project is kept apart from other requests by the name
of its user; a request that names no user goes by the digest of its payload.
-/
import LayerScript.Json.Reader
import LayerScript.Script.Train
import LayerScript.Settings

set_option autoImplicit false

namespace LayerScript

/-! ## 1. Users -/

/-- Whether a character may stand in the name of a user. -/
def isUserChar (c : Char) : Bool :=
  c.isAlphanum || c == '-' || c == '_' || c == '.'

/-- Whether a text may name a user. The name becomes the name of a directory, so it may
not be one of the two that every directory has, nor lead into another. -/
def isUser (name : String) : Bool :=
  !name.isEmpty && name ≠ "." && name ≠ ".." && name.toList.all isUserChar

/-- The name that a payload without a user goes by. -/
def payloadUser (payload : String) : String :=
  String.ofList ((Digest.sha256 payload).toList.take 16)

/-! ## 2. Binding -/

/-- The two parts of a payload that have to be there. -/
inductive Part where
  | config
  | content
deriving DecidableEq, Repr

/-- The key of a part. -/
def Part.key : Part → String
  | .config => "config"
  | .content => "content"

/-- Why a payload is no project. -/
inductive BindError where
  | malformed (fault : Json.LocatedFault)
  | missingPart (part : Part)
  | invalidPart (part : Part) (fault : Fault)
  | invalidOptimizer (name : String)
  | invalidUser (name : String)
deriving DecidableEq, Repr

namespace BindError

/-- The text of a fault. -/
def message : BindError → String
  | .malformed fault => "malformed payload: " ++ fault.message
  | .missingPart part => "missing field " ++ backquoted part.key
  | .invalidPart part fault => "invalid " ++ backquoted part.key ++ ": " ++ fault.message
  | .invalidOptimizer name => "invalid identifier " ++ backquoted name
  | .invalidUser name => "invalid user id " ++ backquoted name

/-- The texts of the faults that a fault was caused by. -/
def causes : BindError → List String
  | .malformed fault => [fault.message]
  | .invalidPart _ fault => [fault.message]
  | _ => []

/-- The text of a fault, followed by those of the faults it was caused by. -/
def chain (e : BindError) : String :=
  ": ".intercalate (e.message :: e.causes)

end BindError

/-- A request that was understood. -/
structure Project where
  user : String
  config : Config
  dataset : Value
  network : Network
deriving Repr

/-- Decodes a part of a payload. -/
def bindPart {α : Type} (fields : List (String × Value)) (part : Part) (decode : Decoder α) :
    Except BindError α :=
  match fields.lookup part.key with
  | none => .error (.missingPart part)
  | some v => (decode v).mapError (.invalidPart part)

/-- Accepts the name of a user. -/
def bindUser (name : String) : Except BindError String :=
  if isUser name then .ok name else .error (.invalidUser name)

namespace Project

/-- Binds a payload for a user. -/
def ofPayload (payload : String) (user : Option String) : Except BindError Project := do
  let fields ← (Json.readObject payload).mapError .malformed
  let config ← bindPart fields .config Config.ofValue
  if !Literal.isName config.optimizer then .error (.invalidOptimizer config.optimizer)
  let network ← bindPart fields .content Network.ofValue
  let dataset := (fields.lookup "dataset").getD .null
  let user ← match user with
    | some name => bindUser name
    | none => .ok (payloadUser payload)
  .ok ⟨user, config, dataset, network⟩

/-- What a remote trainer is sent: the configuration, the data set and the user. -/
def trainBody (p : Project) : Value :=
  .object [("config", p.config.toValue), ("dataset", p.dataset), ("id", .text p.user)]

end Project

/-! ## 3. Compiling -/

/-- Why a project cannot be compiled. -/
inductive CompileError where
  | graph (fault : GraphError)
  | unsupported (fault : UnsupportedError)
deriving DecidableEq, Repr

/-- The text of a fault. -/
def CompileError.message : CompileError → String
  | .graph fault => fault.message
  | .unsupported fault => fault.message

/-- The settings that bear on the generated scripts. -/
structure Options where
  unreachable : Policy
  validationSplit : Binary64
  monitorRoot : String
deriving DecidableEq, Repr

/-- The options that an installation is set up with. -/
def Settings.options (s : Settings) : Options :=
  ⟨s.unreachable, s.validationSplit, s.monitorRoot⟩

/-- What is generated for a project. -/
structure Compiled where
  model : Script
  trainer : Script
  order : List String
  dropped : List String
deriving Repr

namespace Project

/-- The training script of a project. -/
def trainScript (d : Dialect) (o : Options) (p : Project) : Script :=
  p.config.trainScript d o.validationSplit o.monitorRoot p.user

/-- Generates the scripts of a project. -/
def compile (d : Dialect) (o : Options) (p : Project) : Except CompileError Compiled := do
  let order ← (p.network.resolve o.unreachable).mapError .graph
  let model ← (p.network.modelScript d p.config order).mapError .unsupported
  .ok {
    model := model
    trainer := p.trainScript d o
    order := order.names
    dropped := order.dropped
  }

end Project

end LayerScript
