/-
`Script/Train.lean` -- the script that trains a model.

It takes over everything that the model script defines, loads the data set that
is stored beside it, trains and saves the result. The program runs it from the
directory above, so the paths in it start with the directory of the request.
-/
import LayerScript.Script.Model

set_option autoImplicit false

namespace LayerScript

/-- The name of the file that holds the data set. -/
def datasetFile : String := "dataset.json"

namespace Config

/-- The callbacks that training is given: progress is always reported, the others as
the configuration asks. -/
def callbacks (c : Config) : List String :=
  Variable.remoteMonitor
    :: (if c.earlyStopping.usage then [Variable.earlyStopping] else [])
    ++ (if c.rateReduction.usage then [Variable.reduceLR] else [])

/-- The statement that trains the model, keeping back a part of the data. -/
def fitStatement (validationSplit : Binary64) (c : Config) : Statement :=
  .evaluate (.call (.path (Variable.model ++ ".fit")) [
    .path Variable.data,
    .path Variable.labels,
    .named "epochs" (.count c.epochs),
    .named "batch_size" (.count c.batchSize),
    .named "validation_split" (.real validationSplit),
    .named "callbacks" (.list (c.callbacks.map .path))])

end Config

/-- The statement that defines the callback which reports progress. -/
def Dialect.monitorStatement (d : Dialect) (root : String) : Statement :=
  .assign Variable.remoteMonitor (d.callback "RemoteMonitor" [.named "root" (.quoted root)])

/-- The statements that load the data set of a request. -/
def loadStatements (user : String) : List Statement :=
  let file := Expr.quoted ("./" ++ user ++ "/" ++ datasetFile)
  let part (key : String) : Expr := .item (.path Variable.dataset) (.quoted key)
  [ .assign Variable.dataset (.call (.path "json.load") [.call (.path "open") [file]]),
    .assign Variable.data (part "x"),
    .assign Variable.labels (part "y") ]

/-- The statement that saves the trained model of a request. -/
def saveStatement (user : String) : Statement :=
  .evaluate (.call (.path (Variable.model ++ ".save")) [.quoted ("./" ++ user ++ "/Model")])

/-- The script that trains the model of a request. -/
def Config.trainScript (d : Dialect) (validationSplit : Binary64) (monitorRoot user : String)
    (c : Config) : Script where
  name := .train
  statements :=
    d.imports.map .verbatim
      ++ [.importModule "json", .importAll ScriptName.model.stem]
      ++ loadStatements user
      ++ [d.monitorStatement monitorRoot, c.fitStatement validationSplit, saveStatement user]

end LayerScript
