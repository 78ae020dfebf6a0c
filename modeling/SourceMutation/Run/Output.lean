import SourceMutation.Mutant
import SourceMutation.Run.World

/-!
# The output of a run

Mutants are written into one directory, which is made if it is not there.  The first mutant that
cannot be written ends the writing; those before it stay written.
-/

namespace SourceMutation.Run

variable {σ : Type}

/-- Makes the output directory and those above it, unless something stands there. -/
def ensureOutputDirectory (path : Path) : Run σ Unit := do
  let before ← tree
  match before.isPresent path with
  | .error fault => fail (.file fault)
  | .ok true => return ()
  | .ok false =>
    let (made, after) := before.ensureDirectories path
    setTree after
    match made with
    | .ok () => log (.info s!"Created output directory: {path.text}")
    | .error fault => fail (.ofFault (.outputWrite path.text) fault)

/-- Writes one file of the output. -/
def writeOutput (path : Path) (bytes : Bytes) : Run σ Unit := do
  match (← tree).write path bytes with
  | .error fault => fail (.ofFault (.outputWrite path.text) fault)
  | .ok after =>
    setTree after
    record (.wrote path bytes)

/-- Writes mutants of a source, numbered from `index`, and answers where. -/
def writeNumbered (directory : Path) (source : String) :
    (index : Nat) → List Mutant → Run σ (List Path)
  | _, [] => return []
  | index, mutant :: rest => do
    let name ← ofExcept (MutantName.ofIndex source index)
    let target := directory.below [name]
    writeOutput target (Utf8.encode mutant.text)
    return target :: (← writeNumbered directory source (index + 1) rest)

/-- Writes the mutants of a source, numbered from one, and answers where.  Without mutants nothing
is touched. -/
def writeMutants (directory source : Path) (mutants : List Mutant) : Run σ (List Path) := do
  if mutants.isEmpty then return []
  ensureOutputDirectory directory
  let written ← writeNumbered directory source.name 1 mutants
  log (.debug s!"Wrote {written.length} mutants of '{source.name}' to '{directory.text}'")
  return written

end SourceMutation.Run
