import MiniC.Proofs.Compile
import MiniC.Proofs.CommandLine.Disk

/-!
# What a run leaves behind

A run reads its input and compiles it before it writes anything.  So a run that cannot
read or compile leaves the disk as it was, also where an output stands already, and one
that succeeds has delivered the whole assembly, to the output or to standard output, and
changed nothing else.
-/

namespace MiniC
namespace CommandLine

namespace Disk

/-- The source file that an input names on a disk, with the given bytes as standard
input. -/
def source (disk : Disk) (input : ByteArray) (name : String) :
    Except FileError SourceFile :=
  (if name = "-" then .ok input else disk.read input name).bind fun bytes =>
    (decodeText bytes).map fun text => ⟨name, text⟩

/-- Whether an input can be read and compiled, and to which assembly. -/
def Compiles (disk : Disk) (input : ByteArray) (name text : String) : Prop :=
  ∃ file, disk.source input name = .ok file ∧ compile file = .ok text

/-- Write a text to an output, or to standard output if none is given. -/
def handOver (disk : Disk) (output : Option String) (text : String) :
    Except FileError Disk :=
  match output with
  | none => disk.print text
  | some path => disk.write path text

/-- How a request ends on a disk, and with which disk. -/
inductive Runs (disk : Disk) (input : ByteArray) : Request -> Outcome -> Disk -> Prop
  | help : Runs disk input .help .help disk
  | misuse : Runs disk input .misuse .misuse disk
  | failed {name message : String} {output : Option String}
      (fails : ∀ text, ¬ disk.Compiles input name text) :
      Runs disk input (.compile name output) (.failure message) disk
  | refused {name text : String} {output : Option String} {error : FileError}
      (compiles : disk.Compiles input name text)
      (refused : disk.handOver output text = .error error) :
      Runs disk input (.compile name output)
        (.failure ("cannot write " ++ outputName output ++ ": " ++ error.message)) disk
  | delivered {name text : String} {output : Option String} {after : Disk}
      (compiles : disk.Compiles input name text)
      (delivered : disk.handOver output text = .ok after) :
      Runs disk input (.compile name output) .success after

variable {disk : Disk} {input : ByteArray}

theorem Compiles.unique {name text other : String}
    (compiles : disk.Compiles input name text)
    (also : disk.Compiles input name other) : text = other := by
  obtain ⟨file, read, compiled⟩ := compiles
  obtain ⟨same, readAlso, compiledAlso⟩ := also
  rw [read] at readAlso
  cases readAlso
  rw [compiled] at compiledAlso
  exact Except.ok.inj compiledAlso

/-- One action behind another. -/
theorem action_bind {α β : Type} (first : StateM Disk α) (rest : α -> StateM Disk β)
    (disk : Disk) : (first >>= rest).run disk =
    (rest (first.run disk).1).run (first.run disk).2 :=
  rfl

theorem readSource_run (disk : Disk) (input : ByteArray) (name : String) :
    (readSource (system input) name).run disk = (disk.source input name, disk) := by
  unfold readSource source
  split <;> rfl

/-- A change that fails leaves the disk as it was. -/
theorem alter_run (disk : Disk) (change : Disk -> Except FileError Disk) :
    (alter change).run disk =
      match change disk with
      | .ok after => (.ok (), after)
      | .error error => (.error error, disk) := by
  change (match change disk with
    | .ok after => _
    | .error error => _ : StateM Disk (Except FileError Unit)).run disk = _
  cases change disk <;> rfl

theorem writeOutput_run (disk : Disk) (input : ByteArray) (text : String) :
    ((system input).writeOutput text).run disk =
      match disk.print text with
      | .ok after => (.ok (), after)
      | .error error => (.error error, disk) :=
  alter_run disk (·.print text)

theorem writeFile_run (disk : Disk) (input : ByteArray) (path text : String) :
    ((system input).writeFile path text).run disk =
      match disk.write path text with
      | .ok after => (.ok (), after)
      | .error error => (.error error, disk) :=
  alter_run disk (·.write path text)

/-- A text is handed over, or the run fails and says where it could not be written. -/
theorem deliver_run (disk : Disk) (input : ByteArray) (output : Option String)
    (text : String) :
    (deliver (system input) output text).run disk =
      match disk.handOver output text with
      | .ok after => (.success, after)
      | .error error =>
          (.failure ("cannot write " ++ outputName output ++ ": " ++ error.message),
            disk) := by
  unfold deliver
  cases output with
  | none =>
      rw [action_bind, writeOutput_run, handOver]
      cases disk.print text <;> rfl
  | some path =>
      rw [action_bind, writeFile_run, handOver]
      cases disk.write path text <;> rfl

theorem deliver_runs {name text : String} (compiles : disk.Compiles input name text)
    (output : Option String) :
    disk.Runs input (.compile name output)
      ((deliver (system input) output text).run disk).1
      ((deliver (system input) output text).run disk).2 := by
  rw [deliver_run]
  cases known : disk.handOver output text with
  | ok after => exact .delivered compiles known
  | error error => exact .refused compiles known

/-- Every run ends in one of these ways. -/
theorem run_runs (disk : Disk) (input : ByteArray) (args : List String) :
    disk.Runs input (Request.ofArgs args) (disk.run input args).1
      (disk.run input args).2 := by
  unfold Disk.run CommandLine.run
  cases Request.ofArgs args with
  | help => exact .help
  | misuse => exact .misuse
  | compile name output =>
      dsimp only
      rw [compileInput, action_bind, readSource_run]
      cases read : disk.source input name with
      | error error =>
          refine .failed fun text compiles => ?_
          obtain ⟨file, known, -⟩ := compiles
          rw [read] at known
          cases known
      | ok file =>
          dsimp only
          cases compiled : compile file with
          | error error =>
              refine .failed fun text compiles => ?_
              obtain ⟨other, known, succeeded⟩ := compiles
              rw [read] at known
              cases known
              rw [compiled] at succeeded
              cases succeeded
          | ok text => exact deliver_runs ⟨file, read, compiled⟩ output

end Disk

/-- A disk with a source and an output from before in the working directory. -/
def workDisk : Disk :=
  (Disk.blank.addFile ["a.c"] "int main() \x7b return 0; \x7d".toUTF8).addFile ["a.s"]
    "old".toUTF8

/-- A standard output that takes no text is reported. -/
example : ({ workDisk with broken := some .noSpace }.run ByteArray.empty ["a.c"]).1 =
    .failure "cannot write <stdout>: No space left on device (os error 28)" := by
  decide +kernel

end CommandLine
end MiniC
