import TradeP2P.Lib.Directory

/-! Replacing a file by way of a temporary one: the calls it takes, of which one may fail, and a crash before any of them or
after the last. Whatever happens, the directory without the temporary file is as it was, or has the whole new file. -/
namespace Updates
open Directory

variable {ν β : Type} [DecidableEq ν]

inductive FileCall (ν β : Type) where
  | unlink (name : ν)
  | create (name : ν)
  | write (name : ν) (item : β)
  | close (name : ν)
  | rename (source target : ν)

/- A file is created exclusively; a call without a result has failed. -/
def FileCall.run (files : Files ν (List β)) : FileCall ν β → Option (Files ν (List β))
  | .unlink name => some (Directory.unlink files name)
  | .create name => if read files name = none then some (replace files name []) else none
  | .write name item => (read files name).map fun content => replace files name (content ++ [item])
  | .close _ => some files
  | .rename source target => (read files source).map fun content => replace (Directory.unlink files source) target content

/- The call that fails, or the crash, comes after this many calls. -/
inductive Stop where
  | fails (count : Nat)
  | crashes (count : Nat)

def Stop.sooner : Stop → Stop
  | .fails count => .fails (count - 1)
  | .crashes count => .crashes (count - 1)

inductive Ended (ν β : Type) where
  | finished (files : Files ν (List β))
  | failed (call : FileCall ν β) (files : Files ν (List β))
  | crashed (files : Files ν (List β))

/- A failed call behind the creation takes the temporary file away; whether the first clean-up worked is not looked at. -/
def FileCall.refused (temporary : ν) (files : Files ν (List β)) (goesOn : Ended ν β) : FileCall ν β → Ended ν β
  | .unlink _ => goesOn
  | .create name => .failed (.create name) files
  | call => .failed call (Directory.unlink files temporary)

def perform (temporary : ν) : List (FileCall ν β) → Option Stop → Files ν (List β) → Ended ν β
  | [], stop, files => match stop with
    | some (.crashes 0) => .crashed files
    | _ => .finished files
  | call :: rest, stop, files => match stop with
    | some (.crashes 0) => .crashed files
    | some (.fails 0) => call.refused temporary files (perform temporary rest none files)
    | _ => match call.run files with
      | some left => perform temporary rest (stop.map Stop.sooner) left
      | none => call.refused temporary files (perform temporary rest (stop.map Stop.sooner) files)

/- The contents are written an item at a time: a call that wrote several could only stop at fewer places. -/
def updateCalls (temporary target : ν) (content : List β) : List (FileCall ν β) :=
  .unlink temporary :: .create temporary :: (content.map (.write temporary) ++ [.close temporary, .rename temporary target])

/- The other files, at the end: as they were, or with the new file among them. -/
def Ended.Whole (temporary target : ν) (content : List β) (others : Files ν (List β)) : Ended ν β → Prop
  | .finished left => unlink left temporary = replace others target content
  | .failed _ left => unlink left temporary = others
  | .crashed left => unlink left temporary = others ∨ unlink left temporary = replace others target content

section Laws
variable {files left others : Files ν (List β)} {temporary target : ν} {content written : List β} {stop : Option Stop}
  {call : FileCall ν β} {rest : List (FileCall ν β)}

theorem unlinkTwice (name : ν) : unlink (unlink files name) name = unlink files name := by
  rw [unlink, unlink, List.filter_filter]
  simp only [Bool.and_self]

theorem unlinkReplaced (name : ν) : unlink (replace files name content) name = unlink files name := by
  rw [replace, unlink, List.filter_cons_of_neg (by simp), ← unlink, unlinkTwice]

theorem unlinkSwap (one other : ν) : unlink (unlink files one) other = unlink (unlink files other) one := by
  simp only [unlink, List.filter_filter, Bool.and_comm]

theorem unlinkBeside (apart : target ≠ temporary) :
    unlink (replace files target content) temporary = replace (unlink files temporary) target content := by
  rw [replace, replace, unlink, List.filter_cons_of_pos (by simpa using apart), ← unlink, unlinkSwap]

/- One call, with all that may come after it. -/
theorem stepWhole (same : unlink files temporary = others)
    (later : ∀ left, call.run files = some left → ∀ stop, (perform temporary rest stop left).Whole temporary target content others)
    (unmoved : ∀ stop, (call.refused temporary files (perform temporary rest stop files)).Whole temporary target content others)
    (stop : Option Stop) : (perform temporary (call :: rest) stop files).Whole temporary target content others := by
  unfold perform
  split
  · exact .inl same
  · exact unmoved none
  · split
    next left ran => exact later left ran _
    next => exact unmoved _

theorem renameWhole (apart : target ≠ temporary) (same : unlink files temporary = others)
    (there : read files temporary = some content) (stop : Option Stop) :
    (perform temporary [.rename temporary target] stop files).Whole temporary target content others := by
  have ran : (FileCall.rename temporary target).run files = some (replace (unlink files temporary) target content) := by
    rw [FileCall.run, there]
    rfl
  have moved : unlink (replace (unlink files temporary) target content) temporary = replace others target content := by
    rw [unlinkBeside apart, unlinkTwice, same]
  have done (stop : Option Stop) : (perform temporary [] stop (replace (unlink files temporary) target content)).Whole temporary target
      content others := by
    unfold perform
    split
    · exact .inr moved
    · exact moved
  refine stepWhole same (fun left given => ?_) ?_ stop
  · obtain rfl := Option.some.inj (ran.symm.trans given)
    exact done
  · exact fun _ => (unlinkTwice temporary).trans same

theorem closeWhole (apart : target ≠ temporary) (same : unlink files temporary = others)
    (there : read files temporary = some content) (stop : Option Stop) :
    (perform temporary [.close temporary, .rename temporary target] stop files).Whole temporary target content others := by
  refine stepWhole same (fun left given => ?_) ?_ stop
  · obtain rfl := Option.some.inj given
    exact renameWhole apart same there
  · exact fun _ => (unlinkTwice temporary).trans same

theorem writesWhole (apart : target ≠ temporary) (same : unlink files temporary = others)
    (there : read files temporary = some written) (stop : Option Stop) :
    (perform temporary (content.map (.write temporary) ++ [.close temporary, .rename temporary target]) stop files).Whole
      temporary target (written ++ content) others := by
  induction content generalizing files written stop with
  | nil =>
    rw [List.append_nil]
    exact closeWhole apart same there stop
  | cons item rest ih =>
    have ran : (FileCall.write temporary item).run files = some (replace files temporary (written ++ [item])) := by
      rw [FileCall.run, there]
      rfl
    have grown : read (replace files temporary (written ++ [item])) temporary = some (written ++ [item]) := readReplaced
    have later := ih ((unlinkReplaced temporary).trans same) grown
    rw [List.append_assoc] at later
    refine stepWhole same (fun left given => ?_) ?_ stop
    · obtain rfl := Option.some.inj (ran.symm.trans given)
      exact later
    · exact fun _ => (unlinkTwice temporary).trans same

theorem createWhole (apart : target ≠ temporary) (same : unlink files temporary = others) (stop : Option Stop) :
    (perform temporary (.create temporary :: (content.map (.write temporary) ++ [.close temporary, .rename temporary target])) stop
      files).Whole temporary target content others := by
  refine stepWhole same (fun left ran => ?_) ?_ stop
  · rw [FileCall.run] at ran
    split at ran
    · obtain rfl := Option.some.inj ran
      have empty : read (replace files temporary ([] : List β)) temporary = some [] := readReplaced
      exact writesWhole apart ((unlinkReplaced temporary).trans same) empty
    · cases ran
  · exact fun _ => same

/- However the update ends, the other files are as they were, or the new one is among them. -/
theorem updateWhole (apart : target ≠ temporary) (stop : Option Stop) :
    (perform temporary (updateCalls temporary target content) stop files).Whole temporary target content (unlink files temporary) := by
  refine stepWhole rfl (fun left ran => ?_) ?_ stop
  · obtain rfl := Option.some.inj ran
    exact createWhole apart (unlinkTwice temporary)
  · exact fun stop => createWhole apart rfl stop

/-! Which end an update comes to. -/

theorem soonerFails {count : Nat} (sooner : stop.map Stop.sooner = some (.fails count)) : ∃ count, stop = some (.fails count) := by
  cases stop with
  | none => cases sooner
  | some stop =>
    cases stop with
    | fails count => exact ⟨count, rfl⟩
    | crashes count => cases sooner

theorem soonerCrashes {count : Nat} (sooner : stop.map Stop.sooner = some (.crashes count)) : ∃ count, stop = some (.crashes count) := by
  cases stop with
  | none => cases sooner
  | some stop =>
    cases stop with
    | fails count => cases sooner
    | crashes count => exact ⟨count, rfl⟩

theorem refusedCrashes {goesOn : Ended ν β} (crashed : call.refused temporary files goesOn = .crashed left) : goesOn = .crashed left := by
  cases call with
  | unlink _ => exact crashed
  | create _ | write _ _ | close _ | rename _ _ => cases crashed

/- Only a crash ends in one. -/
theorem crashedStop {calls : List (FileCall ν β)} (crashed : perform temporary calls stop files = .crashed left) :
    ∃ count, stop = some (.crashes count) := by
  induction calls generalizing stop files with
  | nil =>
    unfold perform at crashed
    split at crashed
    · exact ⟨0, rfl⟩
    · cases crashed
  | cons call rest ih =>
    unfold perform at crashed
    split at crashed
    · exact ⟨0, rfl⟩
    · obtain ⟨_, never⟩ := ih (refusedCrashes crashed)
      cases never
    · split at crashed
      · exact soonerCrashes (ih crashed).choose_spec
      · exact soonerCrashes (ih (refusedCrashes crashed)).choose_spec

/- Calls that would come through fail only where a failure is due. -/
def Fails (temporary : ν) (calls : List (FileCall ν β)) (files : Files ν (List β)) : Prop :=
  ∀ (stop : Option Stop) (call : FileCall ν β) (left : Files ν (List β)),
    perform temporary calls stop files = .failed call left → ∃ count, stop = some (.fails count)

theorem failsStep (ran : call.run files = some left) (later : Fails temporary rest left) : Fails temporary (call :: rest) files := by
  intro stop failing end_ failed
  unfold perform at failed
  split at failed
  · cases failed
  · exact ⟨0, rfl⟩
  · rw [ran] at failed
    exact soonerFails (later _ _ _ failed).choose_spec

theorem failsRename (there : read files temporary = some content) : Fails temporary [.rename temporary target] files := by
  have moved : (FileCall.rename temporary target).run files = some (replace (unlink files temporary) target content) := by
    rw [FileCall.run, there]
    rfl
  refine failsStep moved ?_
  intro stop call left failed
  unfold perform at failed
  split at failed <;> cases failed

theorem failsWrites (there : read files temporary = some written) :
    Fails temporary (content.map (.write temporary) ++ [.close temporary, .rename temporary target]) files := by
  induction content generalizing files written with
  | nil => exact failsStep rfl (failsRename there)
  | cons item rest ih =>
    have ran : (FileCall.write temporary item).run files = some (replace files temporary (written ++ [item])) := by
      rw [FileCall.run, there]
      rfl
    have grown : read (replace files temporary (written ++ [item])) temporary = some (written ++ [item]) := readReplaced
    exact failsStep ran (ih grown)

theorem failsUpdate : Fails temporary (updateCalls temporary target content) files := by
  have created : (FileCall.create temporary : FileCall ν β).run (unlink files temporary) =
      some (replace (unlink files temporary) temporary []) := by
    rw [FileCall.run, if_pos readUnlinked]
  have empty : read (replace (unlink files temporary) temporary ([] : List β)) temporary = some [] := readReplaced
  exact failsStep rfl (failsStep created (failsWrites empty))

end Laws
end Updates
