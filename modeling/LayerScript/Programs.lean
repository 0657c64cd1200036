/-
`Programs.lean` -- the programs that a run has to do with.

A run can start a program on the same disk, and it can send a request to one that runs
elsewhere. What either does is not up to this library, so it is a parameter (`Programs`):
given what was started and the disk, it says how the disk is left and what became of the
program, and given what was sent it says what was answered. `standardPrograms` are four
small ones that need nothing but the disk, with nobody to answer elsewhere.
-/
import LayerScript.Address.Basic
import LayerScript.Disk.Access
import LayerScript.Value

set_option autoImplicit false

namespace LayerScript

/-! ## 1. Programs on the same disk -/

/-- A program that is to be started. -/
structure Launch where
  program : String
  argument : String
  directory : Location
deriving DecidableEq, Repr

/-- How a program came to its end: by itself, with a status, or by a signal. -/
inductive Ending where
  | exited (status : Nat)
  | signalled (signal : String)
deriving DecidableEq, Repr

namespace Ending

/-- The status of a program that was not ended by a signal. -/
def status? : Ending → Option Nat
  | .exited status => some status
  | .signalled _ => none

/-- How messages describe an ending. -/
def text : Ending → String
  | .exited status => "exit status: " ++ toString status
  | .signalled signal => "signal: " ++ signal

end Ending

/-- A program that came to its end. -/
structure Finished where
  ending : Ending
  output : String
  errors : String
deriving DecidableEq, Repr

/-- Why the system did not start a program, in its words. -/
structure StartFault where
  text : String
deriving DecidableEq, Repr

/-! ## 2. Programs elsewhere -/

/-- Why a request was not answered as it should be, and the faults behind that. -/
structure RequestFault where
  text : String
  causes : List String
deriving DecidableEq, Repr

/-- The answer to a request that was accepted. Its text may break off. -/
structure Response where
  status : Nat
  body : Except RequestFault String

/-! ## 3. What becomes of them -/

/-- What becomes of programs: of one that is started, the disk it leaves, and how it ended or
why it could not be started; of one that a document is sent to, what it answers, unless it
refuses or is not reached. -/
structure Programs where
  start : Launch → Disk → Disk × Except StartFault Finished
  post : Address → Value → Except RequestFault Response

/-- A program that copies the file named by its argument to its output. An argument with a
dash in front is taken for options, and no path is one of those. -/
def copyFile (l : Launch) (d : Disk) : Finished :=
  let refused (fault : String) : Finished :=
    ⟨.exited 1, "", "cat: " ++ fault ++ "\nTry 'cat --help' for more information.\n"⟩
  match l.argument.toList with
  | '-' :: '-' :: _ => refused ("unrecognized option '" ++ l.argument ++ "'")
  | '-' :: letters =>
    let unknown := (letters.find? fun c => !"AbeEnstTuv".toList.contains c).getD '/'
    refused ("invalid option -- '" ++ unknown.toString ++ "'")
  | _ =>
    match d.readText l.directory l.argument with
    | .ok text => ⟨.exited 0, text, ""⟩
    | .error fault => ⟨.exited 1, "", "cat: " ++ l.argument ++ ": " ++ fault.message ++ "\n"⟩

/-- Four programs that leave the disk alone: one repeats its argument, one copies the file
that its argument names, one succeeds and one fails. No other program is found, and no
request reaches anyone. The user and password of an address are not shown. -/
def standardPrograms : Programs where
  start l d :=
    (d, match l.program with
      | "echo" => .ok ⟨.exited 0, l.argument ++ "\n", ""⟩
      | "cat" => .ok (copyFile l d)
      | "true" => .ok ⟨.exited 0, "", ""⟩
      | "false" => .ok ⟨.exited 1, "", ""⟩
      | name =>
        let fault : DiskFault :=
          if Step.maxSize < name.utf8ByteSize then .nameTooLong else .missing
        .error ⟨fault.message⟩)
  post address _ :=
    .error ⟨"error sending request for url (" ++ address.withoutCredentials.text ++ ")",
      ["no network"]⟩

end LayerScript
