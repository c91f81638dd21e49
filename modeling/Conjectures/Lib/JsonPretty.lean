import Conjectures.Lib.JsonWriter

/-!
# Writing JSON for readers

The spelling of a value over several lines, each level indented by two spaces, and a new line at
the end.  It differs from the compact one in spaces only.

Keys are sorted, and empty arrays and objects stay on one line.  What is written is a document of
the grammar with spaces, and is read back as the value it was written from, with its keys in order
(`loads?_pretty`).

A value whose texts are `Plain` is written.  How long that is at most is a sum over the value
(`room`), which the order of the keys does not change (`pretty_plain`).
-/

namespace Conjectures.Lib.Json

/-- A new line at this level. -/
def newline (level : ℕ) : List Char := '\n' :: List.replicate (2 * level) ' '

mutual

/-- A value that starts at this level, with its members as they stand. -/
def layout (level : ℕ) : Json → Option (List Char)
  | .array [] => some ['[', ']']
  | .array vs => do
    let items ← layoutItems level vs
    return '[' :: items
  | .object [] => some ['\x7b', '\x7d']
  | .object ms => do
    let members ← layoutMembers level ms
    return '\x7b' :: members
  | v => render v

/-- The items and the closing bracket of an array at this level. -/
def layoutItems (level : ℕ) : List Json → Option (List Char)
  | [] => some []
  | [v] => do
    let item ← layout (level + 1) v
    return newline (level + 1) ++ (item ++ (newline level ++ [']']))
  | v :: vs => do
    let item ← layout (level + 1) v
    let items ← layoutItems level vs
    return newline (level + 1) ++ (item ++ ',' :: items)

/-- The members and the closing brace of an object at this level. -/
def layoutMembers (level : ℕ) : List (Text × Json) → Option (List Char)
  | [] => some []
  | [(k, v)] => do
    let key ← quote k
    let value ← layout (level + 1) v
    return newline (level + 1) ++ (key ++ ':' :: ' ' :: (value ++ (newline level ++ ['\x7d'])))
  | (k, v) :: ms => do
    let key ← quote k
    let value ← layout (level + 1) v
    let members ← layoutMembers level ms
    return newline (level + 1) ++ (key ++ ':' :: ' ' :: (value ++ ',' :: members))

end

/-- `json.dumps` with `sort_keys` and `indent=2`, without `ensure_ascii`, and a new line. -/
def pretty (v : Json) : Option (List Char) := (layout 0 v.sortKeys).map (· ++ ['\n'])

/-! ## What is written is spelled -/

theorem spaces_newline (level : ℕ) (rest : List Char) : Spaces (newline level ++ rest) rest := by
  refine ⟨newline level, fun c hc ↦ ?_, rfl⟩
  rcases List.mem_cons.mp hc with rfl | hc
  · rfl
  · rw [List.eq_of_mem_replicate hc]
    rfl

theorem spaces_blank (rest : List Char) : Spaces (' ' :: rest) rest :=
  ⟨[' '], List.forall_mem_singleton.mpr rfl, rfl⟩

mutual

theorem spells_of_layout : ∀ (v : Json) {level : ℕ} {cs : List Char}, layout level v = some cs →
    Keyed v → Floats Literal v → ∀ rest, Spells (cs ++ rest) (.value v) rest
  | .null, _, _, h, hkeyed, hfloats, rest => spells_of_render .null h hkeyed hfloats rest
  | .bool b, _, _, h, hkeyed, hfloats, rest => spells_of_render (.bool b) h hkeyed hfloats rest
  | .int n, _, _, h, hkeyed, hfloats, rest => spells_of_render (.int n) h hkeyed hfloats rest
  | .float s, _, _, h, hkeyed, hfloats, rest => spells_of_render (.float s) h hkeyed hfloats rest
  | .string s, _, _, h, hkeyed, hfloats, rest => spells_of_render (.string s) h hkeyed hfloats rest
  | .array [], _, _, h, _, _, rest => by
    cases h
    exact .noItems (.refl _)
  | .array (v :: vs), _, cs, h, hkeyed, hfloats, rest => by
    unfold layout at h
    obtain ⟨items, hitems, h⟩ := Option.bind_eq_some_iff.mp h
    cases h
    exact .array (spells_of_layoutItems (v :: vs) (by simp) hitems hkeyed hfloats rest)
  | .object [], _, _, h, _, _, rest => by
    cases h
    exact .noMembers (.refl _)
  | .object ((k, v) :: ms), _, cs, h, hkeyed, hfloats, rest => by
    unfold layout at h
    obtain ⟨members, hmembers, h⟩ := Option.bind_eq_some_iff.mp h
    cases h
    exact .object
      (spells_of_layoutMembers ((k, v) :: ms) (by simp) hmembers hkeyed.2 hfloats rest) hkeyed.1

theorem spells_of_layoutItems : ∀ (vs : List Json) {level : ℕ} {cs : List Char}, vs ≠ [] →
    layoutItems level vs = some cs → KeyedItems vs → FloatsItems Literal vs →
    ∀ rest, Spells (cs ++ rest) (.items vs) rest
  | [], _, _, h, _, _, _, _ => absurd rfl h
  | [v], level, cs, _, h, hkeyed, hfloats, rest => by
    unfold layoutItems at h
    obtain ⟨item, hitem, h⟩ := Option.bind_eq_some_iff.mp h
    cases h
    simp only [List.append_assoc, List.cons_append, List.nil_append]
    exact .item (spaces_newline _ _) (spells_of_layout v hitem hkeyed.1 hfloats.1 _)
      (spaces_newline _ _)
  | v :: v' :: vs, level, cs, _, h, hkeyed, hfloats, rest => by
    unfold layoutItems at h
    obtain ⟨item, hitem, h⟩ := Option.bind_eq_some_iff.mp h
    obtain ⟨items, hitems, h⟩ := Option.bind_eq_some_iff.mp h
    cases h
    simp only [List.append_assoc, List.cons_append]
    exact .items (spaces_newline _ _) (spells_of_layout v hitem hkeyed.1 hfloats.1 _) (.refl _)
      (spells_of_layoutItems (v' :: vs) (by simp) hitems hkeyed.2 hfloats.2 rest)

theorem spells_of_layoutMembers : ∀ (ms : List (Text × Json)) {level : ℕ} {cs : List Char},
    ms ≠ [] → layoutMembers level ms = some cs → KeyedMembers ms → FloatsMembers Literal ms →
    ∀ rest, Spells (cs ++ rest) (.members ms) rest
  | [], _, _, h, _, _, _, _ => absurd rfl h
  | [(k, v)], level, cs, _, h, hkeyed, hfloats, rest => by
    unfold layoutMembers at h
    obtain ⟨key, hkey, h⟩ := Option.bind_eq_some_iff.mp h
    obtain ⟨value, hvalue, h⟩ := Option.bind_eq_some_iff.mp h
    cases h
    obtain ⟨units, rfl, hunits, hjoin⟩ := quote_spec hkey
    have hvalue' := spells_of_layout v hvalue hkeyed.1 hfloats.1 (newline level ++ '\x7d' :: rest)
    have hspelled := Spells.member (spaces_newline (level + 1) _) (hunits _) (.refl _)
      (spaces_blank _) hvalue' (spaces_newline _ _)
    simpa [hjoin] using hspelled
  | (k, v) :: m :: ms, level, cs, _, h, hkeyed, hfloats, rest => by
    unfold layoutMembers at h
    obtain ⟨key, hkey, h⟩ := Option.bind_eq_some_iff.mp h
    obtain ⟨value, hvalue, h⟩ := Option.bind_eq_some_iff.mp h
    obtain ⟨members, hmembers, h⟩ := Option.bind_eq_some_iff.mp h
    cases h
    obtain ⟨units, rfl, hunits, hjoin⟩ := quote_spec hkey
    have hspelled := Spells.members (spaces_newline (level + 1) _) (hunits _) (.refl _)
      (spaces_blank _) (spells_of_layout v hvalue hkeyed.1 hfloats.1 (',' :: (members ++ rest)))
      (.refl _) (spells_of_layoutMembers (m :: ms) (by simp) hmembers hkeyed.2 hfloats.2 rest)
    simpa [hjoin] using hspelled

end

/-- What was written is read back, its keys in order. -/
theorem loads?_pretty {v : Json} {cs : List Char} (h : pretty v = some cs) (hkeyed : Keyed v)
    (hfloats : Floats Literal v) : loads? cs = some v.sortKeys := by
  obtain ⟨laid, hlaid, rfl⟩ := Option.map_eq_some_iff.mp h
  have hend : Spaces ['\n'] [] := spaces_newline 0 []
  exact loads?_eq_some.mpr ⟨_, _, .refl _,
    spells_of_layout v.sortKeys hlaid hkeyed.sortKeys hfloats.sortKeys ['\n'], hend⟩

/-! ## How long a layout is -/

mutual

/-- The texts of the value are plain. -/
def PlainTexts : Json → Prop
  | .string s => Plain s
  | .array vs => PlainItems vs
  | .object ms => PlainMembers ms
  | _ => True

def PlainItems : List Json → Prop
  | [] => True
  | v :: vs => PlainTexts v ∧ PlainItems vs

def PlainMembers : List (Text × Json) → Prop
  | [] => True
  | (k, v) :: ms => (Plain k ∧ PlainTexts v) ∧ PlainMembers ms

end

mutual

instance PlainTexts.decidable : DecidablePred PlainTexts
  | .string s => inferInstanceAs (Decidable (Plain s))
  | .array vs => PlainItems.decidable vs
  | .object ms => PlainMembers.decidable ms
  | .null | .bool _ | .int _ | .float _ => isTrue trivial

instance PlainItems.decidable : DecidablePred PlainItems
  | [] => isTrue trivial
  | v :: vs =>
    have := PlainTexts.decidable v
    have := PlainItems.decidable vs
    inferInstanceAs (Decidable (PlainTexts v ∧ PlainItems vs))

instance PlainMembers.decidable : DecidablePred PlainMembers
  | [] => isTrue trivial
  | (k, v) :: ms =>
    have := PlainTexts.decidable v
    have := PlainMembers.decidable ms
    inferInstanceAs (Decidable ((Plain k ∧ PlainTexts v) ∧ PlainMembers ms))

end

mutual

/-- At most so many characters lay the value out, in whatever order its members are. -/
def room (level : ℕ) : Json → ℕ
  | .int n => (decimal n).length
  | .float spelling => spelling.length
  | .string s => s.length + 2
  | .array vs => 2 * level + 2 + roomItems level vs
  | .object ms => 2 * level + 2 + roomMembers level ms
  | _ => 5

def roomItems (level : ℕ) : List Json → ℕ
  | [] => 0
  | v :: vs => 2 * level + 4 + room (level + 1) v + roomItems level vs

def roomMembers (level : ℕ) : List (Text × Json) → ℕ
  | [] => 0
  | (k, v) :: ms => 2 * level + 8 + k.length + room (level + 1) v + roomMembers level ms

end

@[simp] theorem length_newline (level : ℕ) : (newline level).length = 2 * level + 1 := by
  rw [newline, List.length_cons, List.length_replicate]

mutual

theorem layout_plain : ∀ (v : Json) (level : ℕ), PlainTexts v →
    ∃ cs, layout level v = some cs ∧ cs.length ≤ room level v
  | .null, _, _ | .bool true, _, _ | .bool false, _, _ | .int _, _, _ | .float _, _, _ =>
    ⟨_, rfl, by simp [room]⟩
  | .string s, _, h => by
    obtain ⟨quoted, hquoted, hlength⟩ := quote_plain h
    exact ⟨quoted, hquoted, hlength.le⟩
  | .array [], _, _ | .object [], _, _ =>
    ⟨_, rfl, by rw [room, List.length_cons, List.length_singleton]; omega⟩
  | .array (v :: vs), level, h => by
    obtain ⟨items, hitems, hlength⟩ := layoutItems_plain (v :: vs) level h
    refine ⟨'[' :: items, by rw [layout, hitems] <;> simp, ?_⟩
    rw [List.length_cons, room]
    omega
  | .object (m :: ms), level, h => by
    obtain ⟨members, hmembers, hlength⟩ := layoutMembers_plain (m :: ms) level h
    refine ⟨'\x7b' :: members, by rw [layout, hmembers] <;> simp, ?_⟩
    rw [List.length_cons, room]
    omega

theorem layoutItems_plain : ∀ (vs : List Json) (level : ℕ), PlainItems vs →
    ∃ cs, layoutItems level vs = some cs ∧ cs.length ≤ 2 * level + 1 + roomItems level vs
  | [], _, _ => ⟨_, rfl, Nat.zero_le _⟩
  | [v], level, h => by
    obtain ⟨item, hitem, hlength⟩ := layout_plain v (level + 1) h.1
    refine ⟨_, by rw [layoutItems, hitem]; rfl, ?_⟩
    simp only [List.length_append, length_newline, List.length_singleton, roomItems]
    omega
  | v :: v' :: vs, level, h => by
    obtain ⟨item, hitem, hlength⟩ := layout_plain v (level + 1) h.1
    obtain ⟨items, hitems, hrest⟩ := layoutItems_plain (v' :: vs) level h.2
    refine ⟨_, by rw [layoutItems, hitem, hitems]; rfl; simp, ?_⟩
    rw [roomItems]
    simp only [List.length_append, List.length_cons, length_newline]
    omega

theorem layoutMembers_plain : ∀ (ms : List (Text × Json)) (level : ℕ), PlainMembers ms →
    ∃ cs, layoutMembers level ms = some cs ∧ cs.length ≤ 2 * level + 1 + roomMembers level ms
  | [], _, _ => ⟨_, rfl, Nat.zero_le _⟩
  | [(k, v)], level, h => by
    obtain ⟨key, hkey, hquoted⟩ := quote_plain h.1.1
    obtain ⟨value, hvalue, hlength⟩ := layout_plain v (level + 1) h.1.2
    refine ⟨_, by rw [layoutMembers, hkey, hvalue]; rfl, ?_⟩
    simp only [List.length_append, List.length_cons, length_newline, List.length_nil, roomMembers]
    omega
  | (k, v) :: m :: ms, level, h => by
    obtain ⟨key, hkey, hquoted⟩ := quote_plain h.1.1
    obtain ⟨value, hvalue, hlength⟩ := layout_plain v (level + 1) h.1.2
    obtain ⟨members, hmembers, hrest⟩ := layoutMembers_plain (m :: ms) level h.2
    refine ⟨_, by rw [layoutMembers, hkey, hvalue, hmembers]; rfl; simp, ?_⟩
    rw [roomMembers]
    simp only [List.length_append, List.length_cons, length_newline]
    omega

end

theorem plainMembers_iff {ms : List (Text × Json)} :
    PlainMembers ms ↔ ∀ m ∈ ms, Plain m.1 ∧ PlainTexts m.2 := by
  induction ms with
  | nil => simp [PlainMembers]
  | cons m ms ih => rw [PlainMembers, ih, List.forall_mem_cons]

theorem roomMembers_perm {ms ms' : List (Text × Json)} {level : ℕ} (h : ms.Perm ms') :
    roomMembers level ms = roomMembers level ms' := by
  induction h with
  | nil => rfl
  | cons m _ ih => rw [roomMembers, roomMembers, ih]
  | swap m m' ms =>
    simp only [roomMembers]
    omega
  | trans _ _ ih ih' => exact ih.trans ih'

mutual

theorem plain_sortKeys : ∀ (v : Json) (level : ℕ), PlainTexts v →
    PlainTexts v.sortKeys ∧ room level v.sortKeys = room level v
  | .null, _, h | .bool _, _, h | .int _, _, h | .float _, _, h | .string _, _, h => ⟨h, rfl⟩
  | .array vs, level, h => by
    obtain ⟨hplain, hroom⟩ := plain_sortItems vs level h
    exact ⟨hplain, by rw [sortKeys, room, room, hroom]⟩
  | .object ms, level, h => by
    obtain ⟨hplain, hroom⟩ := plain_sortMembers ms level h
    have hperm := List.perm_insertionSort (fun m m' : Text × Json ↦ m.1 ≤ m'.1) (sortMembers ms)
    refine ⟨plainMembers_iff.mpr fun m hm ↦ plainMembers_iff.mp hplain m (hperm.mem_iff.mp hm), ?_⟩
    rw [sortKeys, room, room, roomMembers_perm hperm, hroom]

theorem plain_sortItems : ∀ (vs : List Json) (level : ℕ), PlainItems vs →
    PlainItems (sortItems vs) ∧ roomItems level (sortItems vs) = roomItems level vs
  | [], _, h => ⟨h, rfl⟩
  | v :: vs, level, h => by
    obtain ⟨hv, hroom⟩ := plain_sortKeys v (level + 1) h.1
    obtain ⟨hvs, hrooms⟩ := plain_sortItems vs level h.2
    exact ⟨⟨hv, hvs⟩, by rw [sortItems, roomItems, roomItems, hroom, hrooms]⟩

theorem plain_sortMembers : ∀ (ms : List (Text × Json)) (level : ℕ), PlainMembers ms →
    PlainMembers (sortMembers ms) ∧ roomMembers level (sortMembers ms) = roomMembers level ms
  | [], _, h => ⟨h, rfl⟩
  | (k, v) :: ms, level, h => by
    obtain ⟨hv, hroom⟩ := plain_sortKeys v (level + 1) h.1.2
    obtain ⟨hms, hrooms⟩ := plain_sortMembers ms level h.2
    exact ⟨⟨⟨h.1.1, hv⟩, hms⟩, by rw [sortMembers, roomMembers, roomMembers, hroom, hrooms]⟩

end

/-- A value of plain texts is written, in no more room than it takes unsorted. -/
theorem pretty_plain {v : Json} (h : PlainTexts v) :
    ∃ cs, pretty v = some cs ∧ cs.length ≤ room 0 v + 1 := by
  obtain ⟨hplain, hroom⟩ := plain_sortKeys v 0 h
  obtain ⟨cs, hcs, hlength⟩ := layout_plain v.sortKeys 0 hplain
  refine ⟨cs ++ ['\n'], by rw [pretty, hcs]; rfl, ?_⟩
  rw [List.length_append, List.length_singleton, ← hroom]
  omega

end Conjectures.Lib.Json
