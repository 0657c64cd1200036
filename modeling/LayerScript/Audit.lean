/-
`Audit.lean` -- the record of what was done.

Every request that wrote files, trained or was sent leaves a line in a file under the user's
home directory. The line is a JSON object with its keys in ascending order. A
record that cannot be kept is no failure: the request goes on without it.
-/
import LayerScript.Disk.Access
import LayerScript.Json.Writer

set_option autoImplicit false

namespace LayerScript

/-- The directory that holds what the program keeps for a user of the system. -/
def configDirectory (home : String) : String :=
  Path.join home ".config/netforge"

/-- The path of the record. -/
def auditFile (home : String) : String :=
  Path.join (configDirectory home) "audit.jsonl"

/-- Something that is put on record. -/
inductive AuditEvent where
  | compiled (user modelDigest : String)
  | trained (user : String) (ok : Bool)
  | submitted (user : String) (status : Nat)
deriving DecidableEq, Repr

namespace AuditEvent

/-- What was done. -/
def action : AuditEvent → String
  | .compiled .. => "compile"
  | .trained .. => "train"
  | .submitted .. => "submit"

/-- What it was done for, and with what result. -/
def data : AuditEvent → Value
  | .compiled user modelDigest =>
    .object [("model_sha256", .text modelDigest), ("namespace", .text user)]
  | .trained user ok => .object [("namespace", .text user), ("ok", .bool ok)]
  | .submitted user status => .object [("namespace", .text user), ("status", .ofNat status)]

/-- The line of an event at a time, given in seconds. -/
def line (time : Nat) (e : AuditEvent) : String :=
  (Value.object [("action", .text e.action), ("data", e.data), ("ts", .ofNat time)]).compact
    ++ "\n"

end AuditEvent

/-- The disk after an event was put on record. Without a home directory there is no record. -/
def Disk.record (workingDirectory : Location) (home : Option String) (time : Nat)
    (e : AuditEvent) (d : Disk) : Disk :=
  match home with
  | none => d
  | some home =>
    let d := (d.createDirectories workingDirectory (configDirectory home)).1
    match d.append workingDirectory (auditFile home) (e.line time) with
    | .ok d => d
    | .error _ => d

end LayerScript
