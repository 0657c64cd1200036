/-
`Script.lean` -- the scripts that are generated, as statements and not as text.

A generated script is a list of statements, each on one line. What matters about
a statement besides its text is which variable it gives a value and which
variables it looks up, and both are read off its structure: an expression is made
of dotted paths, literals, lists, look-ups and calls, and the variable that a
path looks up is its first segment.
-/
import LayerScript.Digest
import LayerScript.Literal

set_option autoImplicit false

namespace LayerScript

/-! ## 1. Expressions -/

/-- An expression of the script language. -/
inductive Expr where
  /-- A dotted path, or a single variable. -/
  | path (dotted : String)
  /-- A literal in its final spelling. -/
  | literal (text : String)
  | list (items : List Expr)
  | item (container index : Expr)
  | call (function : Expr) (arguments : List Expr)
  /-- An argument given by name. -/
  | named (name : String) (value : Expr)
deriving Repr

namespace Expr

/-- A text as a literal between double quotes. -/
def quoted (text : String) : Expr := .literal (Literal.quote text)

mutual

/-- The text of an expression. -/
def text : Expr → String
  | .path dotted => dotted
  | .literal text => text
  | .list items => "[" ++ textList items ++ "]"
  | .item container index => container.text ++ "[" ++ index.text ++ "]"
  | .call function arguments => function.text ++ "(" ++ textList arguments ++ ")"
  | .named name value => name ++ "=" ++ value.text

/-- The texts of several expressions, separated by a comma and a space. -/
def textList : List Expr → String
  | [] => ""
  | [e] => e.text
  | e :: rest => e.text ++ ", " ++ textList rest

end

/-- The first segment of a dotted path: the variable that it looks up. -/
def head (dotted : String) : String :=
  String.ofList (dotted.toList.takeWhile (· ≠ '.'))

mutual

/-- The variables that an expression looks up, from left to right. -/
def reads : Expr → List String
  | .path dotted => [head dotted]
  | .literal _ => []
  | .list items => readsList items
  | .item container index => container.reads ++ index.reads
  | .call function arguments => function.reads ++ readsList arguments
  | .named _ value => value.reads

/-- The variables that several expressions look up. -/
def readsList : List Expr → List String
  | [] => []
  | e :: rest => e.reads ++ readsList rest

end

end Expr

/-! ## 2. Statements -/

/-- A statement of a script. -/
inductive Statement where
  /-- A line that is copied as it stands. -/
  | verbatim (line : String)
  | importModule (name : String)
  /-- Takes over every variable of another script. -/
  | importAll (module : String)
  | assign (target : String) (value : Expr)
  | evaluate (value : Expr)
deriving Repr

namespace Statement

/-- The line of a statement. -/
def text : Statement → String
  | .verbatim line => line
  | .importModule name => "import " ++ name
  | .importAll module => "from " ++ module ++ " import *"
  | .assign target value => target ++ " = " ++ value.text
  | .evaluate value => value.text

/-- The variable that a statement gives a value, as far as its structure tells. -/
def target? : Statement → Option String
  | .importModule name => some name
  | .assign target _ => some target
  | _ => none

/-- The variables that a statement looks up. -/
def reads : Statement → List String
  | .assign _ value => value.reads
  | .evaluate value => value.reads
  | _ => []

end Statement

/-! ## 3. Scripts -/

/-- The name of a script, without the directory and the ending of its file. -/
inductive ScriptName where
  | model
  | train
deriving DecidableEq, Repr

/-- The name by which another script imports it. -/
def ScriptName.stem : ScriptName → String
  | .model => "model"
  | .train => "train"

/-- The name of its file. -/
def ScriptName.file (name : ScriptName) : String :=
  name.stem ++ ".py"

/-- A generated script. -/
structure Script where
  name : ScriptName
  statements : List Statement
deriving Repr

namespace Script

/-- The lines of a script. -/
def lines (s : Script) : List String :=
  s.statements.map (·.text)

/-- The text of a script: its lines, and a line break at the end. -/
def text (s : Script) : String :=
  "\n".intercalate s.lines ++ "\n"

/-- The digest of the text of a script. -/
def digest (s : Script) : String :=
  Digest.sha256 s.text

end Script

/-! ## 4. The variables that scripts define -/

namespace Variable

/-- The model that `model.py` builds. -/
def model : String := "model"

/-- The callback that ends training early. -/
def earlyStopping : String := "early_stopping"

/-- The callback that lowers the learning rate. -/
def reduceLR : String := "reduce_lr"

/-- The callback that reports progress. -/
def remoteMonitor : String := "remote_monitor"

/-- The data set as it is loaded. -/
def dataset : String := "dataset"

/-- The examples to train on. -/
def data : String := "x_train"

/-- Their labels. -/
def labels : String := "y_train"

end Variable

end LayerScript
