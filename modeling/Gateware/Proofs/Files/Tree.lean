import Gateware.Files.Tree
import Mathlib.Tactic.Common

/-!
# Writing and reading files

A file that was written can be read at the same path, with what was written.  The path leads to the
same location before and after: on the way there are only directories, and the location itself is
not one, so that none of the nodes on the way changes.  Making directories touches no file.
-/

namespace Gateware

namespace FileTree

variable {t : FileTree} {location target : List String} {node : FileNode}

lemma lookup_filter_ne : ∀ (nodes : List (List String × FileNode)), location ≠ target →
    (nodes.filter (·.1 != target)).lookup location = nodes.lookup location
  | [], _ => rfl
  | (other, node) :: rest, h => by
      have ih := lookup_filter_ne rest h
      by_cases hother : other = target
      · subst hother
        have hbeq : (location == other) = false := by simpa using h
        simpa [List.lookup_cons, hbeq] using ih
      · simp [hother, List.lookup_cons, ih]

lemma node?_put_of_ne (h : location ≠ target) :
    (t.put target node).node? location = t.node? location := by
  have hbeq : (location == target) = false := by simpa using h
  simp only [node?, put, List.lookup_cons, hbeq, lookup_filter_ne t.nodes h]

lemma node?_put_self (h : t.node? location ≠ some .directory) :
    (t.put location node).node? location = some node := by
  have haround : isAround location = false := by
    by_contra haround
    exact h (by simp [node?, haround])
  simp [node?, put, haround]

/-- A path leads to the same location after a node has been put there, since that is not one of the
directories on the way. -/
lemma follow_put (htarget : t.node? target ≠ some .directory) :
    ∀ (parts : List String) {location : List String}, t.follow location parts = .ok target →
      (t.put target node).follow location parts = .ok target
  | [], location, h => h
  | part :: parts, location, h => by
      unfold follow at h ⊢
      cases hnode : t.node? location with
      | none => simp [hnode] at h
      | some found =>
          cases found with
          | file content => simp [hnode] at h
          | directory =>
              -- What is followed further is a directory, so it is not the target.
              have hne : location ≠ target := by
                rintro rfl
                exact htarget hnode
              rw [node?_put_of_ne hne]
              simp only [hnode] at h ⊢
              split_ifs at h ⊢
              · exact follow_put htarget parts h
              · exact follow_put htarget parts h
              · exact follow_put htarget parts h

lemma locate_put {path : String} (htarget : t.node? target ≠ some .directory)
    (h : t.locate path = .ok target) : (t.put target node).locate path = .ok target := by
  unfold locate locateParts at h ⊢
  cases herror : pathError? (Path.parts path) with
  | some e => simp [herror] at h
  | none =>
      simp only [herror] at h ⊢
      exact follow_put htarget _ h

/-- A file can be written exactly where a path leads to something other than a directory. -/
lemma write_eq_ok {path content : String} {written : FileTree} :
    t.write path content = .ok written ↔
      ∃ location, t.locate path = .ok location ∧ t.node? location ≠ some .directory ∧
        written = t.put location (.file content) := by
  unfold write
  cases t.locate path with
  | error e => simp
  | ok location =>
      rcases hnode : t.node? location with _ | content' | _
      · simp [hnode, eq_comm]
      · simp [hnode, eq_comm]
      · simp [hnode]

/-- **A written file can be read.** -/
theorem read_of_write {path content : String} {written : FileTree}
    (h : t.write path content = .ok written) : written.read path = .ok content := by
  obtain ⟨location, hlocate, hnode, rfl⟩ := write_eq_ok.mp h
  simp only [read, locate_put hnode hlocate, node?_put_self hnode]

/-- A file can be written at a path, once a directory and those around it have been made. -/
def Accepts (t : FileTree) (directory path : String) : Prop :=
  ∃ made, t.makeDirectories directory = (made, .ok ()) ∧
    ∃ location, made.locate path = .ok location ∧ made.node? location ≠ some .directory

/-! ## Making directories -/

/-- Two trees have the same files, with the same contents. -/
def SameFiles (t t' : FileTree) : Prop :=
  ∀ location content,
    t.node? location = some (.file content) ↔ t'.node? location = some (.file content)

lemma SameFiles.refl (t : FileTree) : t.SameFiles t := fun _ _ => Iff.rfl

lemma SameFiles.trans {t t' t'' : FileTree} (h : t.SameFiles t') (h' : t'.SameFiles t'') :
    t.SameFiles t'' := fun location content => (h location content).trans (h' location content)

lemma sameFiles_put_directory (h : t.node? location = none) :
    (t.put location .directory).SameFiles t := by
  intro other content
  by_cases hother : other = location
  · subst hother
    rw [node?_put_self (by simp [h]), h]
    simp
  · rw [node?_put_of_ne hother]

lemma makeDirectory_sameFiles {parts : List String} {made : FileTree}
    (h : t.makeDirectory parts = .ok made) : made.SameFiles t := by
  unfold makeDirectory at h
  cases herror : pathError? parts with
  | some e => simp [herror] at h
  | none =>
      cases hfollow : t.follow (startOf parts) (withoutSlashes parts) with
      | error e => simp [herror, hfollow] at h
      | ok location =>
          cases hnode : t.node? location with
          | some node => simp [herror, hfollow, hnode] at h
          | none =>
              simp only [herror, hfollow, hnode] at h
              cases h
              exact sameFiles_put_directory hnode

lemma ensureDirectory_sameFiles {parts : List String} {made : FileTree}
    (h : t.ensureDirectory parts = .ok made) : made.SameFiles t := by
  unfold ensureDirectory at h
  cases hmake : t.makeDirectory parts with
  | ok made' =>
      simp only [hmake] at h
      cases h
      exact makeDirectory_sameFiles hmake
  | error e =>
      simp only [hmake] at h
      split_ifs at h
      cases h
      exact .refl t

lemma settle_sameFiles {parts : List String} :
    (t.settle (t.ensureDirectory parts)).1.SameFiles t := by
  cases hensure : t.ensureDirectory parts with
  | ok made => exact ensureDirectory_sameFiles hensure
  | error e => exact .refl t

lemma makeDirectoriesWithin_sameFiles : ∀ (fuel : Nat) (t : FileTree) (parts : List String),
    (makeDirectoriesWithin fuel t parts).1.SameFiles t
  | 0, t, parts => .refl t
  | fuel + 1, t, parts => by
      unfold makeDirectoriesWithin
      split_ifs
      · exact .refl t
      · split
        · have ih := makeDirectoriesWithin_sameFiles fuel t (Path.parent parts)
          split
          · next around hmade =>
              rw [hmade] at ih
              exact settle_sameFiles.trans ih
          · next around e hmade =>
              rw [hmade] at ih
              exact ih
        · exact settle_sameFiles

/-- Making directories touches no file. -/
lemma makeDirectories_sameFiles (t : FileTree) (path : String) :
    (t.makeDirectories path).1.SameFiles t :=
  makeDirectoriesWithin_sameFiles _ t _

end FileTree

end Gateware
