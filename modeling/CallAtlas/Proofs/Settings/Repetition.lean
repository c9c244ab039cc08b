import CallAtlas.Proofs.Json.Spelling
import CallAtlas.Proofs.Settings
import CallAtlas.Proofs.Settings.Layouts
import Mathlib.Data.List.Perm.Basic

/-!
# Settings that a file gives twice

A setting that is given twice should be refused, and most of them are: at the top and in the
section, or under both of its spellings. One repetition is never noticed. If one object has the same
name twice, spelled alike, then the reader settles it before the settings are looked at, and the
last value counts (`Settings.load_accepts_alike`).

So a file is judged by its lasting members. `Settings.load_refuses_iff` says when it is refused, and
that without names spelled alike every repetition is.
-/

namespace CallAtlas

open Json (Value Spelled Spells SpellsMembers lasting settledMember settledMembers)

namespace Settings

variable {platform : Platform} {fs : FileSystem} {file : Path} {stripped : List Char}
  {members : List (String × Value)}

/-! ## The settings that last -/

/-- The settings that an object gives, by name, where of members spelled alike only the last
counts. -/
def lastingSettings (members : List (String × Value)) : List (String × Value) :=
  ((lasting members).flatMap fun member => lasting (written member)).map named

/-- The value of a section is settled like the object that it stands in. -/
theorem perm_written_settledMember (member : String × Value) :
    (written (settledMember member)).Perm ((lasting (written member)).map settledMember) := by
  obtain ⟨key, value⟩ := member
  by_cases hkey : key = sectionName
  · subst hkey
    cases value with
    | object nested => exact (Json.perm_settledMembers nested).2
    | null | bool | int | float | string | surrogates | array => exact .rfl
  · have hsettled : (settledMember (key, value)).1 ≠ sectionName := hkey
    rw [written_of_ne hsettled, written_of_ne hkey]
    exact .rfl

/-- What a settled object gives are the lasting settings, settled themselves. -/
theorem perm_settingsOf_settledMembers (members : List (String × Value)) :
    (settingsOf (settledMembers [] members)).Perm
      ((lastingSettings members).map settledMember) := by
  have hwritten : ((settledMembers [] members).flatMap written).Perm
      (((lasting members).flatMap fun member => lasting (written member)).map settledMember) := by
    refine ((Json.perm_settledMembers members).2.flatMap_right written).trans ?_
    rw [List.flatMap_map, List.map_flatMap]
    exact List.Perm.flatMap_left _ fun member _ => perm_written_settledMember member
  have hcomm : named ∘ settledMember = settledMember ∘ named := rfl
  rw [lastingSettings, List.map_map, ← hcomm, ← List.map_map]
  exact hwritten.map named

theorem sectioned_settledMembers :
    Sectioned (settledMembers [] members) ↔ Sectioned (lasting members) := by
  have hmem {member : String × Value} :
      member ∈ settledMembers [] members ↔ ∃ m ∈ lasting members, settledMember m = member := by
    rw [(Json.perm_settledMembers members).2.mem_iff, List.mem_map]
  constructor
  · intro h value hvalue
    obtain ⟨nested, hnested⟩ := h value.settled (hmem.mpr ⟨_, hvalue, rfl⟩)
    cases value with
    | object members => exact ⟨members, rfl⟩
    | null | bool | int | float | string | surrogates | array => cases hnested
  · intro h value hvalue
    obtain ⟨⟨key, value'⟩, hmember, heq⟩ := hmem.mp hvalue
    obtain ⟨rfl, rfl⟩ := Prod.mk.inj heq
    obtain ⟨nested, rfl⟩ := h value' hmember
    exact ⟨settledMembers [] nested, rfl⟩

/-- The names of the lasting settings are those of the settled object. -/
theorem nodup_settingsOf_settledMembers :
    ((settingsOf (settledMembers [] members)).map Prod.fst).Nodup ↔
      ((lastingSettings members).map Prod.fst).Nodup := by
  have hnames : ((lastingSettings members).map settledMember).map Prod.fst =
      (lastingSettings members).map Prod.fst :=
    List.map_map
  rw [((perm_settingsOf_settledMembers members).map Prod.fst).nodup_iff, hnames]

/-- If no object has a name twice, all settings last. -/
theorem lastingSettings_of_nodup (hmembers : (members.map Prod.fst).Nodup)
    (hsection : ∀ nested, (sectionName, .object nested) ∈ members → (nested.map Prod.fst).Nodup) :
    lastingSettings members = settingsOf members := by
  have hwritten : ∀ member ∈ members, lasting (written member) = written member := by
    rintro ⟨key, value⟩ hmember
    by_cases hkey : key = sectionName
    · subst hkey
      cases value with
      | object nested => exact Json.lasting_of_nodup (hsection nested hmember)
      | null | bool | int | float | string | surrogates | array => rfl
    · rw [written_of_ne hkey]
      rfl
  rw [lastingSettings, Json.lasting_of_nodup hmembers, List.flatMap_congr hwritten]
  rfl

/-! ## Files -/

/-- A regular file with the right suffix that can be opened, whose text is this once its comments
are taken out. -/
structure IsSettingsFile (platform : Platform) (fs : FileSystem) (file : Path)
    (stripped : List Char) : Prop where
  answers : platform.answers fs file = true
  opens : platform.opens fs file = true
  suffix : file.suffix = ".json"
  content : ∃ content text, fs.entry? file = some (.file content) ∧
    String.fromUTF8? content = some text ∧
    Json.stripComments (Text.unifyLineEnds text.toList) = some stripped

/-- What is loaded from a file is decided by its settled object. -/
theorem load_of_spelled (hfile : IsSettingsFile platform fs file stripped)
    (hspelled : Spelled stripped (.object members))
    (hroom : (Value.object members).levels ≤ platform.readRoom) :
    load platform fs file = (flatten (settledMembers [] members)).mapError .config := by
  obtain ⟨hanswers, hopens, hsuffix, content, text, hentry, htext, hstrip⟩ := hfile
  have hread : Json.parse platform.readRoom stripped = .ok (.object (settledMembers [] members)) :=
    Json.parse_eq_ok_iff.mpr ⟨_, hspelled, hroom, rfl⟩
  have hisFile : fs.isFile file = true := isFile_iff.mpr ⟨content, hentry⟩
  have hload : load platform fs file = (fs.readText file).mapError .file >>=
      parse platform.readRoom file := by
    unfold load
    rw [hanswers, if_neg (by simp), hisFile, if_neg (by simp), if_neg (not_not.mpr hsuffix), hopens,
      if_neg (by simp)]
  have hbytes := readBytes_of_entry? hentry
  rw [hload, readText_of_bytes hbytes htext]
  show parse platform.readRoom file _ = _
  unfold parse
  simp only [hstrip, hread]

/-- **When a file is refused.** Let the text of a settings file, without its comments, spell an
object that there is room for. It is refused with a message exactly if, among the members that no
later one of the same object replaces, the section is no object or some setting is given twice;
otherwise it is loaded as if the others were not there. So if no object has a name twice, spelled
alike, then every setting that is given twice is refused, at whatever places, in whatever spelling
and order. -/
theorem load_refuses_iff (hfile : IsSettingsFile platform fs file stripped)
    (hspelled : Spelled stripped (.object members))
    (hroom : (Value.object members).levels ≤ platform.readRoom) :
    ((∃ e, load platform fs file = .error (.config e)) ↔
      ¬(Sectioned (lasting members) ∧ ((lastingSettings members).map Prod.fst).Nodup)) ∧
    (Sectioned (lasting members) → ((lastingSettings members).map Prod.fst).Nodup →
      ∃ settings, load platform fs file = .ok settings ∧
      settings.Perm ((lastingSettings members).map settledMember)) ∧
    ((members.map Prod.fst).Nodup →
      (∀ nested, (sectionName, .object nested) ∈ members → (nested.map Prod.fst).Nodup) →
      ¬((settingsOf members).map Prod.fst).Nodup →
      ∃ e, load platform fs file = .error (.config e)) := by
  have hload := load_of_spelled hfile hspelled hroom
  let object : Table String Value :=
    { entries := settledMembers [] members, nodup := (Json.perm_settledMembers members).1 }
  have hok : (∃ settings, flatten (settledMembers [] members) = .ok settings) ↔
      Sectioned (lasting members) ∧ ((lastingSettings members).map Prod.fst).Nodup := by
    rw [← sectioned_settledMembers, ← nodup_settingsOf_settledMembers]
    exact flatten_eq_ok_iff object
  have hrefused : (∃ e, load platform fs file = .error (.config e)) ↔
      ¬(Sectioned (lasting members) ∧ ((lastingSettings members).map Prod.fst).Nodup) := by
    rw [← hok, hload]
    cases flatten (settledMembers [] members) with
    | error e => exact iff_of_true ⟨e, rfl⟩ fun ⟨_, h⟩ => by cases h
    | ok settings => exact iff_of_false (fun ⟨_, h⟩ => by cases h) (not_not.mpr ⟨settings, rfl⟩)
  refine ⟨hrefused, fun hsection hnodup => ?_, fun hmembers hsection hrepeats => ?_⟩
  · obtain ⟨settings, hsettings⟩ := hok.mpr ⟨hsection, hnodup⟩
    refine ⟨settings, ?_, ?_⟩
    · rw [hload, hsettings]
      rfl
    · have hflatten : flatten object.entries = .ok settings := hsettings
      exact (get?_of_flatten hflatten).1.trans (perm_settingsOf_settledMembers members)
  · rw [← lastingSettings_of_nodup hmembers hsection] at hrepeats
    exact hrefused.mpr fun h => hrepeats h.2

/-! ## Two files -/

/-- A file system with one settings file. -/
def oneFile (text : String) : FileSystem := { entries := [("c.json", .file text.toUTF8)] }

theorem isSettingsFile_oneFile {text : String} {stripped : List Char}
    (h : String.fromUTF8? text.toUTF8 = some text)
    (hstrip : Json.stripComments (Text.unifyLineEnds text.toList) = some stripped) :
    IsSettingsFile .usual (oneFile text) (Path.ofString "c.json") stripped where
  answers := by rfl
  opens := rfl
  suffix := by decide +kernel
  content := ⟨text.toUTF8, text, rfl, h, hstrip⟩

/-- A file with a setting at its top and, spelled otherwise, in its section. -/
def acrossText : String := "\x7b\"rootDir\": \"a\", \"callGraph\": \x7b\"root_dir\": \"b\"\x7d\x7d"

/-- The members of its object. -/
def acrossMembers : List (String × Value) :=
  [("rootDir", .string "a"), ("callGraph", .object [("root_dir", .string "b")])]

theorem spelled_across : Spelled acrossText.toList (.object acrossMembers) := by
  have hnested :
      Spells "\x7b\"root_dir\": \"b\"\x7d\x7d".toList (.object [("root_dir", .string "b")]) ['}'] :=
    .object (@SpellsMembers.last _ ": \"b\"\x7d\x7d".toList _ _ _ _ _ rfl rfl (.string rfl) rfl)
  have hsection : SpellsMembers "\"callGraph\": \x7b\"root_dir\": \"b\"\x7d\x7d".toList
      [("callGraph", .object [("root_dir", .string "b")])] [] :=
    @SpellsMembers.last _ ": \x7b\"root_dir\": \"b\"\x7d\x7d".toList _ _ _ _ _ rfl rfl hnested rfl
  refine ⟨[], .object ?_, rfl⟩
  exact @SpellsMembers.cons _ ": \"a\", \"callGraph\": \x7b\"root_dir\": \"b\"\x7d\x7d".toList
    " \"a\", \"callGraph\": \x7b\"root_dir\": \"b\"\x7d\x7d".toList _ _ _ _ _ _ rfl rfl
      (.string rfl) rfl hsection

/-- That file is refused. -/
theorem load_refuses_iff_across :
    IsSettingsFile .usual (oneFile acrossText) (Path.ofString "c.json") acrossText.toList ∧
      Spelled acrossText.toList (.object acrossMembers) ∧
      (Value.object acrossMembers).levels ≤ Platform.usual.readRoom ∧
      ∃ e, load .usual (oneFile acrossText) (Path.ofString "c.json") = .error (.config e) := by
  have hfile :
      IsSettingsFile .usual (oneFile acrossText) (Path.ofString "c.json") acrossText.toList :=
    isSettingsFile_oneFile (by decide +kernel) (by rfl)
  have hroom : (Value.object acrossMembers).levels ≤ Platform.usual.readRoom := by decide
  refine ⟨hfile, spelled_across, hroom,
    (load_refuses_iff hfile spelled_across hroom).2.2 (by decide) ?_ (by decide)⟩
  intro nested hnested
  simp only [acrossMembers, List.mem_cons, Prod.mk.injEq, Value.object.injEq, List.not_mem_nil,
    or_false] at hnested
  rcases hnested with ⟨-, hvalue⟩ | ⟨-, rfl⟩
  · cases hvalue
  · exact List.nodup_singleton _

/-- A file with one name twice, spelled alike. -/
def alikeText : String := "\x7b\"port\": 1, \"port\": 2\x7d"

/-- The members of its object. -/
def alikeMembers : List (String × Value) := [("port", .int 1), ("port", .int 2)]

theorem spelled_alike : Spelled alikeText.toList (.object alikeMembers) := by
  have hlast : SpellsMembers "\"port\": 2\x7d".toList [("port", .int 2)] [] :=
    @SpellsMembers.last _ ": 2\x7d".toList _ _ _ _ _ rfl rfl (.number rfl) rfl
  refine ⟨[], .object ?_, rfl⟩
  exact @SpellsMembers.cons _ ": 1, \"port\": 2\x7d".toList " 1, \"port\": 2\x7d".toList _ _
    _ _ _ _ rfl rfl
    (.number rfl) rfl hlast

/-- That file is loaded, and the last value counts. -/
theorem load_accepts_alike :
    IsSettingsFile .usual (oneFile alikeText) (Path.ofString "c.json") alikeText.toList ∧
      Spelled alikeText.toList (.object alikeMembers) ∧
      ¬((settingsOf alikeMembers).map Prod.fst).Nodup ∧
      load .usual (oneFile alikeText) (Path.ofString "c.json") = .ok [("port", .int 2)] := by
  have hfile :
      IsSettingsFile .usual (oneFile alikeText) (Path.ofString "c.json") alikeText.toList :=
    isSettingsFile_oneFile (by decide +kernel) (by rfl)
  refine ⟨hfile, spelled_alike, by decide, ?_⟩
  rw [load_of_spelled hfile spelled_alike (by decide)]
  rfl

end Settings

end CallAtlas
