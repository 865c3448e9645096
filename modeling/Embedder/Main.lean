import Embedder.CommandLine

/-!
The program: it reads the environment, the files and the clock, and lets the command line decide.
-/

open Embedder

/-- The contents of a file, if it can be read. -/
def readContent? (path : String) : IO (Option Bytes) := do
  try
    pure (some (← IO.FS.readBinFile path).toList)
  catch _ => pure none

/-- The variables of the environment that stand in for flags. -/
def readVariables : IO (List (String × String)) := do
  let names := CommandLine.Flag.all.filterMap CommandLine.Flag.variable?
  let values ← names.mapM fun name => do pure ((← IO.getEnv name).map fun v => (name, v))
  pure (values.filterMap id)

/-- The value of a name in a list. -/
def lookUp (entries : List (String × α)) (name : String) : Option α :=
  (entries.find? fun e => e.1 = name).map Prod.snd

/-- Execute with the readings taken so far. If the run asks for more of them, take one more and
execute again. -/
partial def executeWith (execute : Clock → CommandLine.Execution) (readings : Array Reading) :
    IO CommandLine.Execution := do
  let e := execute (.ofReadings readings.toList (.ok 0))
  if e.asked ≤ readings.size then pure e
  else do
    let time := (← IO.monoNanosNow) / 1000
    executeWith execute (readings.push (.ok (UInt64.ofNat time)))

/-- Execute a command line. -/
def main (args : List String) : IO UInt32 := do
  let settings ← readVariables
  let env := lookUp settings
  let paths :=
    match CommandLine.parse args env with
    | some (.run o) => o.plain :: o.instrumented :: o.config.toList
    | _ => []
  let contents ← paths.mapM fun path => do pure (path, ← readContent? path)
  let files (path : String) : Option Bytes := (lookUp contents path).join
  let e ← executeWith (CommandLine.run args env files) #[]
  let out ← IO.getStdout
  out.write (ByteArray.mk e.output.toArray)
  out.flush
  if let some problem := e.problem then IO.eprintln ("Error: " ++ problem)
  pure (UInt32.ofNat e.status)
