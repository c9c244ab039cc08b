import CallAtlas.Proofs.Indexing
import CallAtlas.Proofs.Json
import CallAtlas.Proofs.Json.Members
import Mathlib.Data.List.Induction

/-!
# JSON texts as they are written

A JSON text may give a member of an object twice. `Spells` says which value a text spells, member by
member, with nothing left out. If there is room for its levels, what the reader makes of the text is
that value with its repeated members settled: of members with the same name the last value counts,
in the place of the first (`parse_eq_ok_iff`).

A settled object holds the lasting members, those that no later one of the same object replaces, in
some order (`perm_settledMembers`).
-/

namespace CallAtlas.Json

variable {cs rest : List Char}

/-! ## Texts -/

mutual

/-- A text starts with a value, written in this way, and goes on with the rest. -/
inductive Spells : List Char → Value → List Char → Prop
  | word {w : List Char} {v : Value} (h : (w, v) ∈ words) (rest : List Char) :
      Spells (w ++ rest) v rest
  | string {cs rest : List Char} {v : Value} (h : string cs = .ok (v, rest)) :
      Spells ('"' :: cs) v rest
  | number {cs rest : List Char} {v : Value} (h : number false cs = .ok (v, rest)) :
      Spells cs v rest
  | negative {cs rest : List Char} {v : Value} (h : number true cs = .ok (v, rest)) :
      Spells ('-' :: cs) v rest
  | noMembers {cs rest : List Char} (h : skipBlanks cs = '}' :: rest) :
      Spells ('{' :: cs) (.object []) rest
  | object {cs rest : List Char} {members : List (String × Value)}
      (h : SpellsMembers (skipBlanks cs) members rest) : Spells ('{' :: cs) (.object members) rest
  | noItems {cs rest : List Char} (h : skipBlanks cs = ']' :: rest) :
      Spells ('[' :: cs) (.array []) rest
  | array {cs rest : List Char} {items : List Value} (h : SpellsItems (skipBlanks cs) items rest) :
      Spells ('[' :: cs) (.array items) rest

/-- A text starts with the members of an object and its end. -/
inductive SpellsMembers : List Char → List (String × Value) → List Char → Prop
  | last {cs after text after' rest : List Char} {name : String} {v : Value}
      (hname : Json.name cs = .ok (name, after))
      (hcolon : skipBlanks after = ':' :: text) (hvalue : Spells (skipBlanks text) v after')
      (hclose : skipBlanks after' = '}' :: rest) : SpellsMembers ('"' :: cs) [(name, v)] rest
  | cons {cs after text after' more rest : List Char} {name : String} {v : Value}
      {members : List (String × Value)}
      (hname : Json.name cs = .ok (name, after)) (hcolon : skipBlanks after = ':' :: text)
      (hvalue : Spells (skipBlanks text) v after') (hcomma : skipBlanks after' = ',' :: more)
      (hmore : SpellsMembers (skipBlanks more) members rest) :
        SpellsMembers ('"' :: cs) ((name, v) :: members) rest

/-- A text starts with the items of an array and its end. -/
inductive SpellsItems : List Char → List Value → List Char → Prop
  | last {cs after rest : List Char} {v : Value} (hvalue : Spells cs v after)
      (hclose : skipBlanks after = ']' :: rest) : SpellsItems cs [v] rest
  | cons {cs after more rest : List Char} {v : Value} {items : List Value}
      (hvalue : Spells cs v after)
      (hcomma : skipBlanks after = ',' :: more) (hmore : SpellsItems (skipBlanks more) items rest) :
      SpellsItems cs (v :: items) rest

end

/-- A text that spells one value, with blanks around it. -/
def Spelled (text : List Char) (v : Value) : Prop :=
  ∃ rest, Spells (skipBlanks text) v rest ∧ skipBlanks rest = []

/-! ## Levels -/

mutual

/-- How many arrays and objects stand inside each other in a value. -/
def Value.levels : Value → Nat
  | .null | .bool _ | .int _ | .float _ | .string _ | .surrogates _ => 0
  | .array items => itemLevels items + 1
  | .object members => memberLevels members + 1

/-- The most levels among several values. -/
def itemLevels : List Value → Nat
  | [] => 0
  | v :: rest => max v.levels (itemLevels rest)

/-- The most levels among the values of members. -/
def memberLevels : List (String × Value) → Nat
  | [] => 0
  | (_, v) :: rest => max v.levels (memberLevels rest)

end

/-! ## Repeated members -/

mutual

/-- A value with the repeated members of its objects settled. -/
def Value.settled : Value → Value
  | .null => .null
  | .bool b => .bool b
  | .int n => .int n
  | .float x => .float x
  | .string s => .string s
  | .surrogates points => .surrogates points
  | .array items => .array (settledItems items)
  | .object members => .object (settledMembers [] members)

/-- Several values with the repeated members of their objects settled. -/
def settledItems : List Value → List Value
  | [] => []
  | v :: rest => v.settled :: settledItems rest

/-- Members that come after others, with those repeated settled. -/
def settledMembers (before : List (String × Value)) : List (String × Value) → List (String × Value)
  | [] => before
  | (name, v) :: rest => settledMembers (insertMember before name v.settled) rest

end

/-- One more member is put into what the members before it have left. -/
theorem settledMembers_concat (before members : List (String × Value)) (name : String) (v : Value) :
    settledMembers before (members ++ [(name, v)]) =
      insertMember (settledMembers before members) name v.settled := by
  induction members generalizing before with
  | nil => rfl
  | cons first rest ih => exact ih _

/-- A member with its value settled. -/
def settledMember (member : String × Value) : String × Value := (member.1, member.2.settled)

/-- **A settled object** has every name once and holds the members that last, settled themselves. -/
theorem perm_settledMembers (members : List (String × Value)) :
    ((settledMembers [] members).map Prod.fst).Nodup ∧
      (settledMembers [] members).Perm ((lasting members).map settledMember) := by
  induction members using List.reverseRecOn with
  | nil => exact ⟨List.nodup_nil, .rfl⟩
  | append_singleton members member ih =>
    obtain ⟨name, v⟩ := member
    obtain ⟨hnodup, hperm⟩ := ih
    rw [settledMembers_concat]
    refine ⟨nodup_insertMember hnodup name _, (perm_insertMember hnodup name _).trans ?_⟩
    rw [lasting_concat, List.map_append, List.map_singleton]
    refine List.Perm.append ?_ .rfl
    have hfilter := hperm.filter fun m => decide (m.1 ≠ name)
    rwa [List.filter_map] at hfilter

/-! ## What the reader does at each kind of value -/

/-- No word starts with such a character. -/
theorem find?_words_eq_none {c : Char} (h : c ∉ ['n', 't', 'f', 'N', 'I', '-']) (cs : List Char) :
    (words.find? fun w => w.1.isPrefixOf (c :: cs)) = none := by
  simp only [List.mem_cons, List.not_mem_nil, or_false, not_or] at h
  obtain ⟨hn, ht, hf, hN, hI, hminus⟩ := h
  simp [words, List.isPrefixOf, Ne.symm hn, Ne.symm ht, Ne.symm hf, Ne.symm hN, Ne.symm hI,
    Ne.symm hminus]

/-- No word is the start of another, so that each is found. -/
theorem find?_words_of_mem {w : List Char} {v : Value} (h : (w, v) ∈ words) (rest : List Char) :
    (words.find? fun w' => w'.1.isPrefixOf (w ++ rest)) = some (w, v) := by
  simp only [words, List.mem_cons, Prod.mk.injEq, List.not_mem_nil, or_false] at h
  rcases h with ⟨rfl, rfl⟩ | ⟨rfl, rfl⟩ | ⟨rfl, rfl⟩ | ⟨rfl, rfl⟩ | ⟨rfl, rfl⟩ | ⟨rfl, rfl⟩ <;> rfl

/-- A value without levels holds no members, so that nothing is settled in it. -/
theorem settled_of_levels {v : Value} (h : v.levels = 0) : v.settled = v := by
  cases v with
  | null | bool | int | float | string | surrogates => rfl
  | array | object => cases h

/-- The three words are values without levels. -/
theorem levels_of_mem_words {w : List Char} {v : Value} (h : (w, v) ∈ words) : v.levels = 0 := by
  simp only [words, List.mem_cons, Prod.mk.injEq, List.not_mem_nil, or_false] at h
  rcases h with ⟨-, rfl⟩ | ⟨-, rfl⟩ | ⟨-, rfl⟩ | ⟨-, rfl⟩ | ⟨-, rfl⟩ | ⟨-, rfl⟩ <;> rfl

/-- Neither a string nor one with surrogates has levels. -/
theorem levels_ofPoints (points : List Nat) : (Value.ofPoints points).levels = 0 := by
  unfold Value.ofPoints
  split
  · rfl
  · rfl

theorem levels_of_string {v : Value} (h : string cs = .ok (v, rest)) : v.levels = 0 := by
  obtain ⟨⟨points, after⟩, -, h⟩ := bind_eq_ok_iff.mp h
  cases h
  exact levels_ofPoints points

/-- A number starts with a digit, and its value has no levels. -/
theorem of_number {negative : Bool} {v : Value} (h : number negative cs = .ok (v, rest)) :
    (∃ c tail, cs = c :: tail ∧ c.isDigit = true) ∧ v.levels = 0 := by
  unfold number at h
  extract_lets digits after n at h
  have hhead : digits.isEmpty = false → ∃ c tail, cs = c :: tail ∧ c.isDigit = true := by
    intro hdigits
    dsimp only [digits] at hdigits
    split at hdigits
    next tail => exact ⟨'0', tail, rfl, rfl⟩
    next =>
      cases cs with
      | nil => cases hdigits
      | cons c tail =>
        refine ⟨c, tail, rfl, ?_⟩
        by_contra hc
        rw [List.takeWhile_cons_of_neg hc] at hdigits
        cases hdigits
  clear_value after digits
  split at h
  · cases h
  next hdigits =>
    refine ⟨hhead (Bool.eq_false_iff.mpr hdigits), ?_⟩
    split at h
    split at h
    split at h
    · split at h
      · cases h
      · cases h
        rfl
    · cases h
      rfl

section Steps

variable {room : Nat} (fuel : Nat)

/-- A word is read as its value, whatever follows. -/
theorem value_word {w : List Char} {v : Value} (h : (w, v) ∈ words) (rest : List Char) :
    value room (fuel + 1) (w ++ rest) = .ok (v, rest) := by
  unfold value
  simp only [find?_words_of_mem h, List.drop_left]

theorem value_string {v : Value} (h : string cs = .ok (v, rest)) :
    value room (fuel + 1) ('"' :: cs) = .ok (v, rest) := by
  rw [value, find?_words_eq_none (by decide)]
  exact h

theorem value_number {v : Value} (h : number false cs = .ok (v, rest)) :
    value room (fuel + 1) cs = .ok (v, rest) := by
  obtain ⟨c, tail, rfl, hc⟩ := (of_number h).1
  have hne (d : Char) (hd : d.isDigit = false) : c ≠ d := by
    rintro rfl
    rw [hc] at hd
    cases hd
  have hwords : c ∉ ['n', 't', 'f', 'N', 'I', '-'] := by
    have hall : ['n', 't', 'f', 'N', 'I', '-'].all (fun d => !d.isDigit) = true := by decide
    intro hmem
    have hnot := List.all_eq_true.mp hall c hmem
    rw [Bool.not_eq_true'] at hnot
    exact hne c hnot rfl
  rw [value, find?_words_eq_none hwords]
  · exact h
  · exact fun rest heq => hne _ (by decide) (List.head_eq_of_cons_eq heq)
  · exact fun rest heq => hne _ (by decide) (List.head_eq_of_cons_eq heq)
  · exact fun rest heq => hne _ (by decide) (List.head_eq_of_cons_eq heq)
  · exact fun rest heq => hne _ (by decide) (List.head_eq_of_cons_eq heq)

/-- A minus sign starts a number. -/
theorem value_negative {v : Value} (h : number true cs = .ok (v, rest)) :
    value room (fuel + 1) ('-' :: cs) = .ok (v, rest) := by
  obtain ⟨c, tail, rfl, hc⟩ := (of_number h).1
  have hI : 'I' ≠ c := by
    rintro rfl
    cases hc
  have hwords : (words.find? fun w => w.1.isPrefixOf ('-' :: c :: tail)) = none := by
    simp [words, List.isPrefixOf, hI]
  rw [value, hwords]
  exact h

/-- An object without members. -/
theorem value_noMembers (h : skipBlanks cs = '}' :: rest) :
    value (room + 1) (fuel + 1) ('{' :: cs) = .ok (.object [], rest) := by
  rw [value, find?_words_eq_none (by decide)]
  simp only [Nat.add_one_ne_zero, if_false, h]

/-- An opening brace takes one level of the room for the members. -/
theorem value_object {inner : List Char} (h : skipBlanks cs = '"' :: inner) :
    value (room + 1) (fuel + 1) ('{' :: cs) = members room fuel [] ('"' :: inner) := by
  rw [value, find?_words_eq_none (by decide)]
  simp only [Nat.add_one_ne_zero, if_false, h]
  rfl

/-- An array without items. -/
theorem value_noItems (h : skipBlanks cs = ']' :: rest) :
    value (room + 1) (fuel + 1) ('[' :: cs) = .ok (.array [], rest) := by
  rw [value, find?_words_eq_none (by decide)]
  simp only [Nat.add_one_ne_zero, if_false, h]

/-- An opening bracket takes one level of the room for the items. -/
theorem value_array (h : (skipBlanks cs).head? ≠ some ']') :
    value (room + 1) (fuel + 1) ('[' :: cs) = items room fuel [] (skipBlanks cs) := by
  rw [value, find?_words_eq_none (by decide)]
  dsimp only
  rw [if_neg (Nat.succ_ne_zero room)]
  split
  next more heq =>
    rw [heq] at h
    exact absurd rfl h
  next => rfl

/-- No value starts with a closing bracket. -/
theorem items_ne_ok_of_bracket (read : List Value) (more : List Char) (v : Value) :
    items room fuel read (']' :: more) ≠ .ok (v, rest) := by
  have hvalue (fuel : Nat) : value room fuel (']' :: more) = .error .malformed := by
    cases fuel with
    | zero => rfl
    | succ fuel =>
      unfold value
      rw [find?_words_eq_none (by decide)]
      rfl
  intro h
  cases fuel with
  | zero => cases h
  | succ fuel =>
    rw [items, hvalue] at h
    cases h

/-- The last member closes the object. -/
theorem members_last {read : List (String × Value)} {name : String}
    {after text after' : List Char} {v : Value}
    (hname : Json.name cs = .ok (name, after)) (hcolon : skipBlanks after = ':' :: text)
    (hvalue : value room fuel (skipBlanks text) = .ok (v, after'))
    (hclose : skipBlanks after' = '}' :: rest) :
    members room (fuel + 1) read ('"' :: cs) = .ok (.object (insertMember read name v), rest) := by
  rw [members]
  simp only [hname, bind, Except.bind, hcolon, hvalue, hclose]
  rfl

/-- A member with a comma behind it is put among those that were read. -/
theorem members_cons {read : List (String × Value)} {name : String}
    {after text after' more : List Char} {v : Value}
    (hname : Json.name cs = .ok (name, after)) (hcolon : skipBlanks after = ':' :: text)
    (hvalue : value room fuel (skipBlanks text) = .ok (v, after'))
    (hcomma : skipBlanks after' = ',' :: more) :
    members room (fuel + 1) read ('"' :: cs) =
      members room fuel (insertMember read name v) (skipBlanks more) := by
  rw [members]
  simp only [hname, bind, Except.bind, hcolon, hvalue, hcomma]

/-- The last item closes the array; the items were collected in reverse. -/
theorem items_last {read : List Value} {after : List Char} {v : Value}
    (hvalue : value room fuel cs = .ok (v, after)) (hclose : skipBlanks after = ']' :: rest) :
    items room (fuel + 1) read cs = .ok (.array (v :: read).reverse, rest) := by
  rw [items]
  simp only [hvalue, bind, Except.bind, hclose]
  rfl

/-- An item with a comma behind it is put before those that were read. -/
theorem items_cons {read : List Value} {after more : List Char} {v : Value}
    (hvalue : value room fuel cs = .ok (v, after)) (hcomma : skipBlanks after = ',' :: more) :
    items room (fuel + 1) read cs = items room fuel (v :: read) (skipBlanks more) := by
  rw [items]
  simp only [hvalue, bind, Except.bind, hcomma]

end Steps

/-! ## What the reader makes of a spelled text -/

/-- A character behind blanks makes the text shorter. -/
theorem length_lt_of_skipBlanks {c : Char} (h : skipBlanks cs = c :: rest) :
    rest.length < cs.length := by
  have hle := (skipBlanks_suffix cs).length_le
  rw [h, List.length_cons] at hle
  omega

theorem length_le_of_name {s : String} (h : name cs = .ok (s, rest)) : rest.length ≤ cs.length := by
  have hreads : Reads 0 cs (name cs) := reads_name cs
  rw [h] at hreads
  exact List.IsSuffix.length_le hreads

/-- No value makes the text longer, so that fuel of its length is enough. -/
theorem length_le_of_value {room fuel : Nat} {v : Value} (h : value room fuel cs = .ok (v, rest)) :
    rest.length ≤ cs.length := by
  have hreads := (reads_value room fuel).1 cs
  rw [h] at hreads
  exact List.IsSuffix.length_le hreads

/-- **What is spelled is read**, if there is room for its levels. The three relations refer to each
other, so the induction is on the steps of the reader; two for each character are enough. -/
theorem value_of_spells (room fuel : Nat) :
    (∀ cs v rest, Spells cs v rest → v.levels ≤ room → 2 * cs.length < fuel →
      value room fuel cs = .ok (v.settled, rest)) ∧
      (∀ read cs ms rest, SpellsMembers cs ms rest → memberLevels ms ≤ room → 2 * cs.length < fuel →
        members room fuel read cs = .ok (.object (settledMembers read ms), rest)) ∧
      ∀ read cs vs rest, SpellsItems cs vs rest → itemLevels vs ≤ room → 2 * cs.length + 1 < fuel →
        items room fuel read cs = .ok (.array (read.reverse ++ settledItems vs), rest) := by
  induction fuel generalizing room with
  | zero =>
    refine ⟨fun _ _ _ _ _ h => ?_, fun _ _ _ _ _ _ h => ?_, fun _ _ _ _ _ _ h => ?_⟩
    · omega
    · omega
    · omega
  | succ fuel ih =>
    obtain ⟨ihvalue, ihmembers, ihitems⟩ := ih room
    refine ⟨fun cs v rest h hroom hfuel => ?_, fun read cs ms rest h hroom hfuel => ?_,
      fun read cs vs rest h hroom hfuel => ?_⟩
    · cases h with
      | word h =>
        rw [settled_of_levels (levels_of_mem_words h)]
        exact value_word fuel h rest
      | string h =>
        rw [settled_of_levels (levels_of_string h)]
        exact value_string fuel h
      | number h =>
        rw [settled_of_levels (of_number h).2]
        exact value_number fuel h
      | negative h =>
        rw [settled_of_levels (of_number h).2]
        exact value_negative fuel h
      | noMembers h =>
        obtain ⟨inside, rfl⟩ := Nat.exists_eq_add_of_le' (Nat.le_of_add_left_le hroom)
        exact value_noMembers fuel h
      | @object cs _ ms h =>
        obtain ⟨inside, rfl⟩ := Nat.exists_eq_add_of_le' (Nat.le_of_add_left_le hroom)
        have hinner := (skipBlanks_suffix cs).length_le
        rw [List.length_cons] at hfuel
        have hread := (ih inside).2.1 [] _ _ _ h (Nat.le_of_add_le_add_right hroom) (by omega)
        obtain ⟨inner, hquote⟩ : ∃ inner, skipBlanks cs = '"' :: inner := by
          generalize skipBlanks cs = text at h
          cases h with
          | last => exact ⟨_, rfl⟩
          | cons => exact ⟨_, rfl⟩
        rw [value_object fuel hquote, ← hquote]
        exact hread
      | noItems h =>
        obtain ⟨inside, rfl⟩ := Nat.exists_eq_add_of_le' (Nat.le_of_add_left_le hroom)
        exact value_noItems fuel h
      | @array cs _ vs h =>
        obtain ⟨inside, rfl⟩ := Nat.exists_eq_add_of_le' (Nat.le_of_add_left_le hroom)
        have hinner := (skipBlanks_suffix cs).length_le
        rw [List.length_cons] at hfuel
        have hread := (ih inside).2.2 [] _ _ _ h (Nat.le_of_add_le_add_right hroom) (by omega)
        have hbracket : (skipBlanks cs).head? ≠ some ']' := by
          intro hhead
          obtain ⟨more, hmore⟩ := List.head?_eq_some_iff.mp hhead
          rw [hmore] at hread
          exact items_ne_ok_of_bracket fuel [] more _ hread
        rw [value_array fuel hbracket]
        exact hread
    · cases h with
      | last hname hcolon hvalue hclose =>
        have hafter := length_le_of_name hname
        have htext := length_lt_of_skipBlanks hcolon
        rename_i inner after text after' name v
        have hblanks := (skipBlanks_suffix text).length_le
        rw [List.length_cons] at hfuel
        exact members_last fuel hname hcolon
          (ihvalue _ _ _ hvalue (Nat.max_le.mp hroom).1 (by omega)) hclose
      | cons hname hcolon hvalue hcomma hmore =>
        rename_i inner after text after' more name v ms
        have hafter := length_le_of_name hname
        have htext := length_lt_of_skipBlanks hcolon
        have hblanks := (skipBlanks_suffix text).length_le
        rw [List.length_cons] at hfuel
        have hread := ihvalue _ _ _ hvalue (Nat.max_le.mp hroom).1 (by omega)
        have hafter' := length_le_of_value hread
        have hmorelength := length_lt_of_skipBlanks hcomma
        have hblanks' := (skipBlanks_suffix more).length_le
        rw [members_cons fuel hname hcolon hread hcomma]
        exact ihmembers _ _ _ _ hmore (Nat.max_le.mp hroom).2 (by omega)
    · cases h with
      | last hvalue hclose =>
        rw [items_last fuel (ihvalue _ _ _ hvalue (Nat.max_le.mp hroom).1 (by omega)) hclose,
          List.reverse_cons]
        rfl
      | cons hvalue hcomma hmore =>
        rename_i after more v vs
        have hread := ihvalue _ _ _ hvalue (Nat.max_le.mp hroom).1 (by omega)
        have hafter := length_le_of_value hread
        have hmorelength := length_lt_of_skipBlanks hcomma
        have hblanks := (skipBlanks_suffix more).length_le
        rw [items_cons fuel hread hcomma, ihitems _ _ _ _ hmore (Nat.max_le.mp hroom).2 (by omega),
          List.reverse_cons, List.append_assoc]
        rfl

/-- **What is read is spelled**, and there was room for its levels. -/
theorem spells_of_value (room fuel : Nat) :
    (∀ cs w rest, value room fuel cs = .ok (w, rest) → ∃ v, Spells cs v rest ∧ v.levels ≤ room ∧
      w = v.settled) ∧
      (∀ read cs w rest, members room fuel read cs = .ok (w, rest) →
        ∃ ms, SpellsMembers cs ms rest ∧ memberLevels ms ≤ room ∧
        w = .object (settledMembers read ms)) ∧
      ∀ read cs w rest, items room fuel read cs = .ok (w, rest) →
        ∃ vs, SpellsItems cs vs rest ∧ itemLevels vs ≤ room ∧
        w = .array (read.reverse ++ settledItems vs) := by
  induction fuel generalizing room with
  | zero =>
    refine ⟨fun _ _ _ h => ?_, fun _ _ _ _ h => ?_, fun _ _ _ _ h => ?_⟩
    · cases h
    · cases h
    · cases h
  | succ fuel ih =>
    obtain ⟨ihvalue, ihmembers, ihitems⟩ := ih room
    refine ⟨fun cs w rest h => ?_, fun read cs w rest h => ?_, fun read cs w rest h => ?_⟩
    · -- a value without levels is read as it is
      have hplain {v : Value} (hspells : Spells cs v rest) (hlevels : v.levels = 0) :
          ∃ u, Spells cs u rest ∧ u.levels ≤ room ∧ v = u.settled :=
        ⟨v, hspells, hlevels.trans_le (Nat.zero_le room), (settled_of_levels hlevels).symm⟩
      unfold value at h
      split at h
      next word _ hfind =>
        cases h
        have hmem := List.mem_of_find?_eq_some hfind
        have hstart := List.find?_some hfind
        obtain ⟨rest, rfl⟩ := List.isPrefixOf_iff_prefix.mp hstart
        rw [List.drop_left] at hplain ⊢
        exact hplain (.word hmem rest) (levels_of_mem_words hmem)
      next =>
        split at h
        next inner => exact hplain (.string h) (levels_of_string h)
        next inner =>
          split at h
          next => cases h
          next hroom =>
            obtain ⟨inside, rfl⟩ := Nat.exists_eq_succ_of_ne_zero hroom
            split at h
            next more hclose =>
              cases h
              exact ⟨.object [], .noMembers hclose, Nat.le_add_left 1 inside, rfl⟩
            next =>
              obtain ⟨ms, hms, hlevels, rfl⟩ := (ih inside).2.1 _ _ _ _ h
              exact ⟨.object ms, .object hms, Nat.add_le_add_right hlevels 1, rfl⟩
        next inner =>
          split at h
          next => cases h
          next hroom =>
            obtain ⟨inside, rfl⟩ := Nat.exists_eq_succ_of_ne_zero hroom
            split at h
            next more hclose =>
              cases h
              exact ⟨.array [], .noItems hclose, Nat.le_add_left 1 inside, rfl⟩
            next =>
              obtain ⟨vs, hvs, hlevels, rfl⟩ := (ih inside).2.2 _ _ _ _ h
              exact ⟨.array vs, .array hvs, Nat.add_le_add_right hlevels 1, rfl⟩
        next inner => exact hplain (.negative h) (of_number h).2
        next => exact hplain (.number h) (of_number h).2
    · unfold members at h
      split at h
      next inner =>
        obtain ⟨⟨name, after⟩, hname, h⟩ := bind_eq_ok_iff.mp h
        dsimp only at h
        split at h
        next text hcolon =>
          obtain ⟨⟨u, after'⟩, hvalue, h⟩ := bind_eq_ok_iff.mp h
          obtain ⟨v, hv, hlevels, rfl⟩ := ihvalue _ _ _ hvalue
          dsimp only at h
          split at h
          next more hcomma =>
            obtain ⟨ms, hms, hmore, rfl⟩ := ihmembers _ _ _ _ h
            exact ⟨(name, v) :: ms, .cons hname hcolon hv hcomma hms, max_le hlevels hmore, rfl⟩
          next more hclose =>
            cases h
            exact ⟨[(name, v)], .last hname hcolon hv hclose,
              max_le hlevels (Nat.zero_le room), rfl⟩
          next => cases h
        next => cases h
      next => cases h
    · unfold items at h
      obtain ⟨⟨u, after⟩, hvalue, h⟩ := bind_eq_ok_iff.mp h
      obtain ⟨v, hv, hlevels, rfl⟩ := ihvalue _ _ _ hvalue
      dsimp only at h
      split at h
      next more hcomma =>
        obtain ⟨vs, hvs, hmore, rfl⟩ := ihitems _ _ _ _ h
        refine ⟨v :: vs, .cons hv hcomma hvs, max_le hlevels hmore, ?_⟩
        rw [List.reverse_cons, List.append_assoc]
        rfl
      next more hclose =>
        cases h
        refine ⟨[v], .last hv hclose, max_le hlevels (Nat.zero_le room), ?_⟩
        rw [List.reverse_cons]
        rfl
      next => cases h

/-- **The reader settles what is spelled** within the levels that there is room for, and reads
nothing else. -/
theorem parse_eq_ok_iff {room : Nat} {text : List Char} {w : Value} :
    parse room text = .ok w ↔ ∃ v, Spelled text v ∧ v.levels ≤ room ∧ w = v.settled := by
  constructor
  · intro h
    obtain ⟨⟨u, rest⟩, hvalue, h⟩ := bind_eq_ok_iff.mp h
    obtain ⟨v, hv, hlevels, rfl⟩ := (spells_of_value room _).1 _ _ _ hvalue
    dsimp only at h
    split at h
    next hempty =>
      cases h
      exact ⟨v, ⟨rest, hv, List.isEmpty_iff.mp hempty⟩, hlevels, rfl⟩
    next => cases h
  · rintro ⟨v, ⟨rest, hv, hrest⟩, hlevels, rfl⟩
    have hblanks := (skipBlanks_suffix text).length_le
    have hvalue := (value_of_spells room (2 * text.length + 2)).1 _ _ _ hv hlevels (by omega)
    refine bind_eq_ok_iff.mpr ⟨_, hvalue, ?_⟩
    dsimp only
    rw [hrest]
    rfl

end CallAtlas.Json
