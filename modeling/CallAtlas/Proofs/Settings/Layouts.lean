import CallAtlas.Proofs.Json.Members
import CallAtlas.Settings.Options

/-!
# The layouts of a settings file

A setting may stand at the top of a settings file or in its section, and under either of its
spellings. All of these layouts say the same: `Settings.settingsOf` lists what an object gives, by
name, and this list alone decides whether the object is accepted and what comes out
(`Settings.flatten_layouts`).

The loop that gathers the settings keeps one invariant, that the names gathered so far are distinct.
It ends with all of them, or at the first name that is there already (`Settings.gather_cases`).
-/

namespace CallAtlas

open Json (Value)

namespace Settings

/-! ## What an object gives -/

/-- The members of a value that is an object. -/
def membersOf : Value → List (String × Value)
  | .object members => members
  | _ => []

/-- The settings that a member gives, as they are written: those of the section, or the member
itself. -/
def written (member : String × Value) : List (String × Value) :=
  if member.1 = sectionName then membersOf member.2 else [member]

/-- A setting by its name. -/
def named (member : String × Value) : String × Value := (settingName member.1, member.2)

/-- The settings that the members of an object give, by name. -/
def settingsOf (members : List (String × Value)) : List (String × Value) :=
  (members.flatMap written).map named

/-- What stands under the name of the section is an object. -/
def Sectioned (members : List (String × Value)) : Prop :=
  ∀ value, (sectionName, value) ∈ members → ∃ nested, value = .object nested

theorem written_of_ne {member : String × Value} (h : member.1 ≠ sectionName) :
    written member = [member] := if_neg h

theorem written_section (nested : List (String × Value)) :
    written (sectionName, .object nested) = nested := if_pos rfl

/-- Without the section every member is a setting. -/
theorem flatMap_written_of_not_mem {members : List (String × Value)}
    (h : sectionName ∉ members.map Prod.fst) :
    members.flatMap written = members := by
  have hwritten : ∀ member ∈ members, written member = [member] := fun member hmember =>
    written_of_ne fun heq => h (List.mem_map.mpr ⟨member, hmember, heq⟩)
  rw [List.flatMap_congr hwritten, List.flatMap_singleton']

/-! ## Gathering -/

/-- **Settings are gathered** until one comes whose name is there already. -/
theorem gather_cases (settings : Settings) (members : List (String × Value))
    (hnodup : (settings.map Prod.fst).Nodup) :
    (gather settings members = .ok (settings ++ members.map named) ∧
        ((settings ++ members.map named).map Prod.fst).Nodup) ∨
      ∃ name, gather settings members = .error (.repeatedSetting name) ∧
        2 ≤ ((settings ++ members.map named).map Prod.fst).count name := by
  induction members generalizing settings with
  | nil =>
    rw [List.map_nil, List.append_nil]
    exact .inl ⟨rfl, hnodup⟩
  | cons member rest ih =>
    obtain ⟨key, value⟩ := member
    rw [gather]
    split
    next hthere =>
      -- the name is among those gathered and comes once more
      refine .inr ⟨settingName key, rfl, ?_⟩
      have hmem : settingName key ∈ settings.map Prod.fst := by
        by_contra hnot
        rw [Json.findMember?_eq_none_iff.mpr hnot] at hthere
        cases hthere
      have hone : 1 ≤ (settings.map Prod.fst).count (settingName key) :=
        List.one_le_count_iff.mpr hmem
      rw [List.map_append, List.count_append, List.map_cons, List.map_cons, named,
        List.count_cons_self]
      omega
    next hfresh =>
      have hnot : settingName key ∉ settings.map Prod.fst := by
        rwa [Bool.not_eq_true, Option.isSome_eq_false_iff, Option.isNone_iff_eq_none,
          Json.findMember?_eq_none_iff] at hfresh
      have hnext : ((settings ++ [(settingName key, value)]).map Prod.fst).Nodup :=
        Json.nodup_concat hnodup hnot value
      have hall : settings ++ ((key, value) :: rest).map named =
          settings ++ [(settingName key, value)] ++ rest.map named := by simp [named]
      rw [hall]
      exact ih _ hnext

/-! ## Flattening -/

/-- The settings beside the section and then those in it are all that the object gives, in another
order. -/
theorem exists_gather_of_sectioned (object : Table String Value) (h : Sectioned object.entries) :
    ∃ listed, flatten object.entries = gather [] listed ∧
      listed.Perm (object.entries.flatMap written) := by
  cases hsection : Json.findMember? object.entries sectionName with
  | none =>
    have hnot := Json.findMember?_eq_none_iff.mp hsection
    refine ⟨object.entries, ?_, ?_⟩
    · rw [flatten, hsection]
      exact congrArg (gather []) (Json.filter_ne_of_not_mem hnot)
    · rw [flatMap_written_of_not_mem hnot]
  | some value =>
    have hmem := Json.mem_of_findMember? hsection
    obtain ⟨nested, rfl⟩ := h value hmem
    obtain ⟨before, after, hentries⟩ := List.append_of_mem hmem
    -- the section is there once, so it is neither before nor after itself
    obtain ⟨hbefore, hafter⟩ : sectionName ∉ before.map Prod.fst ∧
        sectionName ∉ after.map Prod.fst := by
      have hnodup := object.nodup
      rw [hentries, List.map_append, List.map_cons, List.nodup_middle, List.nodup_cons,
        List.mem_append, not_or] at hnodup
      exact hnodup.1
    refine ⟨before ++ after ++ nested, ?_, ?_⟩
    · rw [flatten, hsection, hentries, List.filter_append, List.filter_cons_of_neg (by simp),
        Json.filter_ne_of_not_mem hbefore, Json.filter_ne_of_not_mem hafter]
    · rw [hentries, List.flatMap_append, List.flatMap_cons, flatMap_written_of_not_mem hbefore,
        flatMap_written_of_not_mem hafter, written_section, List.append_assoc]
      exact List.perm_append_comm.append_left before

theorem flatten_of_not_sectioned (object : Table String Value) (h : ¬Sectioned object.entries) :
    flatten object.entries = .error .sectionNotObject := by
  unfold Sectioned at h
  push Not at h
  obtain ⟨value, hmem, hvalue⟩ := h
  rw [flatten, (Json.findMember?_eq_some_iff object.nodup).mpr hmem]
  cases value with
  | object nested => exact absurd rfl (hvalue nested)
  | null | bool | int | float | string | surrogates | array => rfl

/-- **What becomes of an object**: its section is no object, or a name is given twice, or it is
flattened to all that it gives. -/
theorem flatten_cases (object : Table String Value) :
    (¬Sectioned object.entries ∧ flatten object.entries = .error .sectionNotObject) ∨
      (Sectioned object.entries ∧ ∃ name, flatten object.entries = .error (.repeatedSetting name) ∧
        2 ≤ ((settingsOf object.entries).map Prod.fst).count name) ∨
      (Sectioned object.entries ∧ ((settingsOf object.entries).map Prod.fst).Nodup ∧
        ∃ settings, flatten object.entries = .ok settings ∧
        settings.Perm (settingsOf object.entries)) := by
  by_cases h : Sectioned object.entries
  · obtain ⟨listed, hflatten, hperm⟩ := exists_gather_of_sectioned object h
    have hnamed : (listed.map named).Perm (settingsOf object.entries) := hperm.map named
    rcases gather_cases [] listed List.nodup_nil with ⟨hgather, hnodup⟩ | ⟨name, hgather, htwice⟩
    · refine .inr
        (.inr ⟨h, (hnamed.map Prod.fst).nodup_iff.mp hnodup, listed.map named, ?_, hnamed⟩)
      rw [hflatten, hgather, List.nil_append]
    · refine .inr (.inl ⟨h, name, ?_, ?_⟩)
      · rw [hflatten, hgather]
      · rwa [List.nil_append, (hnamed.map Prod.fst).count_eq] at htwice
  · exact .inl ⟨h, flatten_of_not_sectioned object h⟩

theorem flatten_eq_ok_iff (object : Table String Value) :
    (∃ settings, flatten object.entries = .ok settings) ↔
      Sectioned object.entries ∧ ((settingsOf object.entries).map Prod.fst).Nodup := by
  rcases flatten_cases object with ⟨hnot, herror⟩ | ⟨-, name, herror, htwice⟩ |
    ⟨hsection, hnodup, settings, hok, -⟩
  · rw [herror]
    exact iff_of_false (fun ⟨_, h⟩ => by cases h) fun h => hnot h.1
  · rw [herror]
    refine iff_of_false (fun ⟨_, h⟩ => by cases h) fun h => ?_
    have honce := List.nodup_iff_count_le_one.mp h.2 name
    omega
  · exact iff_of_true ⟨settings, hok⟩ ⟨hsection, hnodup⟩

/-- What an object is flattened to maps the names to the values that it gives. -/
theorem get?_of_flatten {object : Table String Value} {settings : Settings}
    (h : flatten object.entries = .ok settings) : settings.Perm (settingsOf object.entries) ∧
      ∀ name value, settings.get? name = some value ↔
        (name, value) ∈ settingsOf object.entries := by
  rcases flatten_cases object with ⟨-, herror⟩ | ⟨-, name, herror, -⟩ |
    ⟨-, hnodup, settings', hok, hperm⟩
  · cases herror.symm.trans h
  · cases herror.symm.trans h
  · cases hok.symm.trans h
    refine ⟨hperm, fun name value => ?_⟩
    rw [get?, Json.findMember?_eq_some_iff ((hperm.map Prod.fst).nodup_iff.mpr hnodup),
      hperm.mem_iff]

/-- **Layouts do not matter.** An object is flattened exactly if its section, if there is one, is an
object and no name is given twice, beside the section or in it. Then every name is mapped to the
value given for it and nothing else is there, so that another object which gives the same, elsewhere
or spelled otherwise, is flattened to the same mapping. An object that is not flattened is refused
with a message, on its section or on a name that is given twice. -/
theorem flatten_layouts (object : Table String Value) :
    ((∃ settings, flatten object.entries = .ok settings) ↔
      Sectioned object.entries ∧ ((settingsOf object.entries).map Prod.fst).Nodup) ∧
    (∀ settings, flatten object.entries = .ok settings →
      settings.Perm (settingsOf object.entries) ∧
        (∀ name value, settings.get? name = some value ↔
          (name, value) ∈ settingsOf object.entries) ∧
        ∀ other : Table String Value, Sectioned other.entries →
          (settingsOf other.entries).Perm (settingsOf object.entries) →
          ∃ settings', flatten other.entries = .ok settings' ∧
          ∀ name, settings'.get? name = settings.get? name) ∧
    (¬Sectioned object.entries → flatten object.entries = .error .sectionNotObject) ∧
    (Sectioned object.entries → ¬((settingsOf object.entries).map Prod.fst).Nodup →
      ∃ name, flatten object.entries = .error (.repeatedSetting name) ∧
        2 ≤ ((settingsOf object.entries).map Prod.fst).count name) := by
  refine ⟨flatten_eq_ok_iff object, fun settings h => ?_, flatten_of_not_sectioned object,
    fun hsection hrepeats => ?_⟩
  · obtain ⟨hperm, hget⟩ := get?_of_flatten h
    refine ⟨hperm, hget, fun other hsection hsame => ?_⟩
    have hnodup := ((flatten_eq_ok_iff object).mp ⟨settings, h⟩).2
    obtain ⟨settings', h'⟩ :=
      (flatten_eq_ok_iff other).mpr ⟨hsection, (hsame.map Prod.fst).nodup_iff.mpr hnodup⟩
    refine ⟨settings', h', fun name => Option.ext fun value => ?_⟩
    rw [hget, (get?_of_flatten h').2, hsame.mem_iff]
  · rcases flatten_cases object with ⟨hnot, -⟩ | ⟨-, hname⟩ | ⟨-, hnodup, -⟩
    · exact absurd hsection hnot
    · exact hname
    · exact absurd hnodup hrepeats

end Settings

end CallAtlas
