import CallAtlas.Proofs.Path
import CallAtlas.Proofs.Text.Delimited
import Mathlib

/-!
# What labels name

Seen from a directory, a file below it goes by the names that follow, and any other file by its
whole path. The two forms never meet: a path that starts at a slash is none that does not. So labels
tell files apart (`Path.Normal.labelFrom_inj`), whatever the directory is.

The identifier of a declaration and the key of a view are a label, a name and a number in one flat
text. A label may hold colons, slashes and digits in any number, so nothing can be told from the
left. From the right, the number ends at the last colon, and then the name ends at a colon or a
slash that it does not contain itself (`NodeData.graphId_eq_iff`, `CallSite.viewKey_eq_iff`).
-/

namespace CallAtlas

namespace Path

variable {p q : Path}

/-- A path seen from another is what follows its names. -/
theorem relativeTo?_eq_some_iff {base : Path} :
    p.relativeTo? base = some q ↔ p.root = base.root ∧ q.root = "" ∧
      p.parts = base.parts ++ q.parts := by
  unfold relativeTo?
  split
  next hbelow =>
    obtain ⟨rest, hrest⟩ := List.isPrefixOf_iff_prefix.mp hbelow.2
    rw [← hrest, List.drop_left]
    constructor
    · intro h
      cases h
      exact ⟨hbelow.1, rfl, rfl⟩
    · rintro ⟨-, hroot, hparts⟩
      rw [List.append_cancel_left_eq] at hparts
      obtain ⟨root, parts⟩ := q
      cases hroot
      cases hparts
      rfl
  next hbelow =>
    constructor
    · intro h
      cases h
    · rintro ⟨hroot, -, hparts⟩
      exact absurd ⟨hroot, List.isPrefixOf_iff_prefix.mpr ⟨q.parts, hparts.symm⟩⟩ hbelow

/-- A path as it is seen from a directory, if one is given: from there on if it lies below, or else
the whole path. -/
def seenFrom (p : Path) : Option Path → Path
  | none => p
  | some directory => (p.relativeTo? directory).getD p

theorem labelFrom_eq (p : Path) (root : Option Path) :
    p.labelFrom root = (p.seenFrom root).text := by
  cases root with
  | none => rfl
  | some directory => rfl

/-- The two forms in which a path is seen. -/
theorem seenFrom_cases (p : Path) (root : Option Path) : p.seenFrom root = p ∨
    ∃ directory, root = some directory ∧ p.root = directory.root ∧ (p.seenFrom root).root = "" ∧
      p.parts = directory.parts ++ (p.seenFrom root).parts := by
  cases root with
  | none => exact .inl rfl
  | some directory =>
    cases hrelative : p.relativeTo? directory with
    | none => exact .inl (by rw [seenFrom, hrelative, Option.getD_none])
    | some q =>
      rw [seenFrom, hrelative, Option.getD_some]
      exact .inr ⟨directory, rfl, relativeTo?_eq_some_iff.mp hrelative⟩

theorem Normal.seenFrom (hp : p.Normal) (root : Option Path) : (p.seenFrom root).Normal := by
  rcases p.seenFrom_cases root with hseen | ⟨directory, -, -, hroot, hparts⟩
  · rwa [hseen]
  · refine ⟨.inl hroot, fun name hname => hp.parts name ?_⟩
    rw [hparts]
    exact List.mem_append_right _ hname

/-- Absolute paths stay apart, whether they are seen from a directory or not. -/
theorem seenFrom_inj (hp : p.isAbsolute = true) (hq : q.isAbsolute = true) {root : Option Path} :
    p.seenFrom root = q.seenFrom root ↔ p = q := by
  constructor
  · intro h
    have habsolute {p : Path} (hp : p.isAbsolute = true) : p.root ≠ "" := by
      simpa [isAbsolute] using hp
    rcases p.seenFrom_cases root with hseen | ⟨directory, hdirectory, hroot, hempty, hparts⟩
    · rcases q.seenFrom_cases root with hseen' | ⟨-, -, -, hempty', -⟩
      · rw [← hseen, h, hseen']
      · -- one is absolute, and the other is not
        rw [← h, hseen] at hempty'
        exact absurd hempty' (habsolute hp)
    · rcases q.seenFrom_cases root with hseen' | ⟨directory', hdirectory', hroot', -, hparts'⟩
      · rw [h, hseen'] at hempty
        exact absurd hempty (habsolute hq)
      · cases hdirectory.symm.trans hdirectory'
        obtain ⟨root, parts⟩ := p
        obtain ⟨root', parts'⟩ := q
        rw [h, ← hparts'] at hparts
        cases hroot.trans hroot'.symm
        cases hparts
        rfl
  · rintro rfl
    rfl

/-- **Labels tell absolute paths apart.** -/
theorem Normal.labelFrom_inj (hp : p.Normal) (hq : q.Normal) (hp' : p.isAbsolute = true)
    (hq' : q.isAbsolute = true)
    (root : Option Path) : p.labelFrom root = q.labelFrom root ↔ p = q := by
  rw [labelFrom_eq, labelFrom_eq, (hp.seenFrom root).text_inj (hq.seenFrom root),
    seenFrom_inj hp' hq']

end Path

/-! ## Flat keys -/

theorem colon_notMem_toString (z : Int) : ':' ∉ (toString z).toList := by
  intro hmem
  rcases Text.mem_toString_int hmem with hsign | hdigit
  · cases hsign
  · cases hdigit

/-- A number at the end, after a colon. -/
theorem append_colon_toString_eq_iff {text text' : String} {z z' : Int} :
    text ++ ":" ++ toString z = text' ++ ":" ++ toString z' ↔ text = text' ∧ z = z' := by
  have hcolon : (":" : String).toList = [':'] := rfl
  rw [← String.toList_inj]
  simp only [String.toList_append, hcolon]
  rw [Text.append_last_eq_iff ':' (colon_notMem_toString z) (colon_notMem_toString z'),
    String.toList_inj, String.toList_inj, Int.toString_eq_repr, Int.toString_eq_repr, Int.repr_inj]

/-- The identifier of a node is known from its label, name and line, and the other way round. -/
theorem NodeData.graphId_eq_iff {a b : NodeData} (ha : ':' ∉ a.name.toList)
    (hb : ':' ∉ b.name.toList) (root : Option Path) : a.graphId root = b.graphId root ↔
      a.file.labelFrom root = b.file.labelFrom root ∧ a.name = b.name ∧ a.line = b.line := by
  have hcolon : (":" : String).toList = [':'] := rfl
  rw [graphId, graphId, append_colon_toString_eq_iff, ← String.toList_inj]
  simp only [String.toList_append, hcolon]
  rw [Text.append_last_eq_iff ':' ha hb, String.toList_inj, String.toList_inj, and_assoc]

/-- The key of a view is known from the label of the file, the called name and the line, and the
other way round. -/
theorem CallSite.viewKey_eq_iff {a b : CallSite} (ha : '/' ∉ a.called.toList)
    (hb : '/' ∉ b.called.toList) (root : Option Path) : a.viewKey root = b.viewKey root ↔
      a.file.labelFrom root = b.file.labelFrom root ∧ a.called = b.called ∧
      a.position.line = b.position.line := by
  have hslash : ("/" : String).toList = ['/'] := rfl
  rw [viewKey, viewKey, append_colon_toString_eq_iff, ← String.toList_inj]
  simp only [String.toList_append, hslash]
  rw [Text.append_last_eq_iff '/' ha hb, List.append_cancel_left_eq, String.toList_inj,
    String.toList_inj, and_assoc]

end CallAtlas
