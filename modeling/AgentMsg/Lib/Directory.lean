/-!
# Files that are written as a whole

A directory maps names to contents.  Writing a file replaces its content, leaves the
directory alone when the file cannot be opened, and leaves a part of the new content when it
breaks off.
-/

/-- The contents of the files of a directory. -/
abbrev Directory (β : Type) :=
  String → Option (List β)

namespace Directory

variable {β : Type}

def put (files : Directory β) (name : String) (content : List β) : Directory β :=
  fun other => if other = name then some content else files other

/-- How writing a file ends. -/
inductive Written where
  | all
  | nothing
  | part (count : Nat)
  deriving DecidableEq, Repr

/-- Write a file, and tell whether that succeeded. -/
def write (files : Directory β) (name : String) (content : List β) :
    Written → Directory β × Bool
  | .all => (files.put name content, true)
  | .nothing => (files, false)
  | .part count => (files.put name (content.take count), false)

@[simp]
theorem put_same (files : Directory β) (name : String) (content : List β) :
    files.put name content name = some content :=
  if_pos rfl

@[simp]
theorem put_other
    (files : Directory β) {name other : String} (different : other ≠ name) (content : List β) :
    files.put name content other = files other :=
  if_neg different

/-- A write that succeeds has put the whole content. -/
theorem write_ok
    {files written : Directory β} {name : String} {content : List β} {ends : Written}
    (wrote : files.write name content ends = (written, true)) :
    written = files.put name content := by
  cases ends with
  | all =>
      cases wrote
      rfl
  | nothing =>
      cases wrote
  | part count =>
      cases wrote

/-- Writing a file keeps the others, and itself when its content is the same. -/
theorem put_keeps_iff
    {files : Directory β} {name : String} {content : List β} :
    (∀ other old, files other = some old → files.put name content other = some old) ↔
      ∀ old, files name = some old → old = content := by
  constructor
  · intro kept old there
    have same := kept name old there
    rw [put_same] at same
    exact (Option.some.inj same).symm
  · intro same other old there
    by_cases here : other = name
    · subst here
      rw [put_same, same old there]
    · rw [put_other files here, there]

end Directory
