import Conjectures.Lib.JsonWriter
import Conjectures.Lib.Transaction

/-!
# The fields of JSON values

Reading a value by its fields and its items, the kind of number a value may hold, and tables that
are filled row by row, where no key may come twice.

A table is filled by a fold that may refuse (`foldlM_fill`); what it accepts is said without the
fold, by the rows and their keys.  `InOrder` are the values that sorting leaves alone, and `respell`
replaces the spelling of every float, as a reader does that makes numbers of them.
-/

namespace Conjectures.Lib

universe u v w

/-! ## Tables -/

section Filling

variable {α : Type u} {β : Type v} {κ : Type w} {ε : Type u}

/-- A table is filled by rows that are read, each with a key of its own. -/
theorem foldlM_fill {add : List β → α → Except ε (List β)} {Reads : α → β → Prop} {key : β → κ}
    (hadd : ∀ bs a bs', add bs a = .ok bs' ↔
      ∃ b, Reads a b ∧ key b ∉ bs.map key ∧ bs' = bs ++ [b])
    {as : List α} {start bs : List β} (hstart : (start.map key).Nodup) :
    as.foldlM add start = .ok bs ↔
      ∃ rows, List.Forall₂ Reads as rows ∧ ((start ++ rows).map key).Nodup ∧ bs = start ++ rows := by
  induction as generalizing start with
  | nil =>
    rw [List.foldlM_nil]
    simp only [List.forall₂_nil_left_iff, pure, Except.pure, Except.ok.injEq]
    constructor
    · rintro rfl
      exact ⟨[], rfl, by rwa [List.append_nil], (List.append_nil _).symm⟩
    · rintro ⟨rows, rfl, -, rfl⟩
      exact (List.append_nil _).symm
  | cons a as ih =>
    rw [List.foldlM_cons]
    simp only [List.forall₂_cons_left_iff]
    constructor
    · intro h
      cases hstep : add start a with
      | error e =>
        rw [hstep] at h
        cases h
      | ok bs' =>
        rw [hstep] at h
        obtain ⟨b, hb, hfresh, rfl⟩ := (hadd _ _ _).mp hstep
        have hnodup : ((start ++ [b]).map key).Nodup := by
          rw [List.map_append, List.nodup_append]
          refine ⟨hstart, by simp, ?_⟩
          rintro k hk k' hk' rfl
          rw [List.map_singleton, List.mem_singleton] at hk'
          exact hfresh (hk' ▸ hk)
        obtain ⟨rows, hrows, hall, rfl⟩ := (ih hnodup).mp h
        rw [List.append_assoc, List.singleton_append] at hall ⊢
        exact ⟨b :: rows, ⟨b, rows, hb, hrows, rfl⟩, hall, rfl⟩
    · rintro ⟨_, ⟨b, rows, hb, hrows, rfl⟩, hall, rfl⟩
      have hsplit : start ++ b :: rows = (start ++ [b]) ++ rows := by simp
      rw [hsplit] at hall
      have hnodup : ((start ++ [b]).map key).Nodup := by
        rw [List.map_append] at hall
        exact hall.of_append_left
      have hfresh : key b ∉ start.map key := by
        rw [List.map_append, List.nodup_append] at hnodup
        exact fun hmem ↦ hnodup.2.2 _ hmem _ (by simp) rfl
      have hstep : add start a = .ok (start ++ [b]) := (hadd _ _ _).mpr ⟨b, hb, hfresh, rfl⟩
      rw [hstep]
      exact (ih hnodup).mpr ⟨rows, hrows, hall, hsplit⟩

theorem foldlM_fill_nil {add : List β → α → Except ε (List β)} {Reads : α → β → Prop} {key : β → κ}
    (hadd : ∀ bs a bs', add bs a = .ok bs' ↔
      ∃ b, Reads a b ∧ key b ∉ bs.map key ∧ bs' = bs ++ [b]) {as : List α} {bs : List β} :
    as.foldlM add [] = .ok bs ↔ List.Forall₂ Reads as bs ∧ (bs.map key).Nodup := by
  have hnil : (([] : List β).map key).Nodup := List.nodup_nil
  rw [foldlM_fill hadd hnil]
  simp only [List.nil_append]
  constructor
  · rintro ⟨rows, hrows, hall, rfl⟩
    exact ⟨hrows, hall⟩
  · rintro ⟨hrows, hall⟩
    exact ⟨bs, hrows, hall, rfl⟩

/-- Rows are read, each of them apart from those before it. -/
theorem foldlM_rows {add : List β → α → Except ε (List β)} {row : β → α} {Reads : β → Prop}
    {Apart : β → β → Prop}
    (hadd : ∀ bs b bs', add bs (row b) = .ok bs' ↔
      Reads b ∧ (∀ b' ∈ bs, Apart b' b) ∧ bs' = bs ++ [b])
    {start rows bs : List β} :
    (rows.map row).foldlM add start = .ok bs ↔
      (∀ b ∈ rows, Reads b ∧ ∀ b' ∈ start, Apart b' b) ∧ rows.Pairwise Apart ∧
        bs = start ++ rows := by
  induction rows generalizing start with
  | nil => simp [pure, Except.pure, eq_comm]
  | cons b rows ih =>
    rw [List.map_cons, List.foldlM_cons]
    simp only [List.forall_mem_cons, List.pairwise_cons]
    constructor
    · intro h
      obtain ⟨bs', hstep, h⟩ := bind_eq_ok.mp h
      obtain ⟨hb, hapart, rfl⟩ := (hadd _ _ _).mp hstep
      obtain ⟨hrows, hpairwise, rfl⟩ := ih.mp h
      refine ⟨⟨⟨hb, hapart⟩, fun b' hb' ↦ ⟨(hrows b' hb').1, fun b'' hb'' ↦ ?_⟩⟩,
        ⟨fun b' hb' ↦ ?_, hpairwise⟩, by simp⟩
      · exact (hrows b' hb').2 b'' (List.mem_append_left _ hb'')
      · exact (hrows b' hb').2 b (by simp)
    · rintro ⟨⟨⟨hb, hapart⟩, hrows⟩, ⟨hfirst, hpairwise⟩, rfl⟩
      refine bind_eq_ok.mpr ⟨start ++ [b], (hadd _ _ _).mpr ⟨hb, hapart, rfl⟩, ih.mpr ⟨?_, ?_⟩⟩
      · intro b' hb'
        refine ⟨(hrows b' hb').1, fun b'' hb'' ↦ ?_⟩
        rcases List.mem_append.mp hb'' with hb'' | hb''
        · exact (hrows b' hb').2 b'' hb''
        · rw [List.mem_singleton.mp hb'']
          exact hfirst b' hb'
      · exact ⟨hpairwise, by simp⟩

/-- Rows are read one after another, each held against what stands before it. -/
theorem foldlM_push {add : List β → α → Except ε (List β)} {Reads : α → β → Prop}
    {Fits : List β → β → Prop} {as : List α}
    (hadd : ∀ a ∈ as, ∀ bs bs', add bs a = .ok bs' ↔
      ∃ b, Reads a b ∧ Fits bs b ∧ bs' = bs ++ [b]) {start bs : List β} :
    as.foldlM add start = .ok bs ↔ ∃ rows, List.Forall₂ Reads as rows ∧
      (∀ front b back, rows = front ++ b :: back → Fits (start ++ front) b) ∧
      bs = start ++ rows := by
  induction as generalizing start with
  | nil =>
    rw [List.foldlM_nil]
    simp only [List.forall₂_nil_left_iff, pure, Except.pure, Except.ok.injEq]
    constructor
    · rintro rfl
      exact ⟨[], rfl, by simp, (List.append_nil _).symm⟩
    · rintro ⟨rows, rfl, -, rfl⟩
      exact (List.append_nil _).symm
  | cons a as ih =>
    rw [List.foldlM_cons]
    simp only [List.forall₂_cons_left_iff]
    rw [List.forall_mem_cons] at hadd
    constructor
    · intro h
      obtain ⟨bs', hstep, h⟩ := bind_eq_ok.mp h
      obtain ⟨b, hb, hfits, rfl⟩ := (hadd.1 _ _).mp hstep
      obtain ⟨rows, hrows, hall, rfl⟩ := (ih hadd.2).mp h
      refine ⟨b :: rows, ⟨b, rows, hb, hrows, rfl⟩, fun front b' back hsplit ↦ ?_, by simp⟩
      rcases List.cons_eq_append_iff.mp hsplit with ⟨rfl, hcons⟩ | ⟨front, rfl, hback⟩
      · obtain ⟨rfl, -⟩ := List.cons.inj hcons
        rwa [List.append_nil]
      · simpa using hall front b' back hback
    · rintro ⟨_, ⟨b, rows, hb, hrows, rfl⟩, hall, rfl⟩
      have hfits : Fits start b := by simpa using hall [] b rows rfl
      refine bind_eq_ok.mpr ⟨start ++ [b], (hadd.1 _ _).mpr ⟨b, hb, hfits, rfl⟩,
        (ih hadd.2).mpr ⟨rows, hrows, fun front b' back hsplit ↦ ?_, by simp⟩⟩
      simpa using hall (b :: front) b' back (by rw [hsplit, List.cons_append])

/-- Rows stand apart from those before them. -/
theorem pairwise_iff_split {R : β → β → Prop} {bs : List β} :
    bs.Pairwise R ↔ ∀ front b back, bs = front ++ b :: back → ∀ b' ∈ front, R b' b := by
  constructor
  · rintro h front b back rfl b' hb'
    exact (List.pairwise_append.mp h).2.2 b' hb' b List.mem_cons_self
  · intro h
    induction bs with
    | nil => exact .nil
    | cons b bs ih =>
      refine List.pairwise_cons.mpr ⟨fun b' hb' ↦ ?_, ih fun front b' back hsplit b'' hb'' ↦ ?_⟩
      · obtain ⟨front, back, rfl⟩ := List.append_of_mem hb'
        exact h (b :: front) b' back (List.cons_append ..).symm b List.mem_cons_self
      · exact h (b :: front) b' back (by rw [hsplit, List.cons_append]) b''
          (List.mem_cons_of_mem _ hb'')

theorem foldlM_apart {add : List β → α → Except ε (List β)} {Reads : α → β → Prop}
    {Apart : β → β → Prop} {as : List α}
    (hadd : ∀ a ∈ as, ∀ bs bs', add bs a = .ok bs' ↔
      ∃ b, Reads a b ∧ (∀ b' ∈ bs, Apart b' b) ∧ bs' = bs ++ [b]) {bs : List β} :
    as.foldlM add [] = .ok bs ↔ List.Forall₂ Reads as bs ∧ bs.Pairwise Apart := by
  refine (foldlM_push hadd).trans ?_
  simp only [List.nil_append, pairwise_iff_split]
  constructor
  · rintro ⟨rows, hrows, hapart, rfl⟩
    exact ⟨hrows, hapart⟩
  · rintro ⟨hrows, hapart⟩
    exact ⟨bs, hrows, hapart, rfl⟩

/-- Rows are numbered by their places. -/
theorem numbered_iff {number : β → ℕ} {bs : List β} :
    (∀ front b back, bs = front ++ b :: back → number b = front.length + 1) ↔
      bs.map number = List.range' 1 bs.length := by
  constructor
  · intro h
    refine List.ext_getElem (by simp) fun i hi _ ↦ ?_
    rw [List.length_map] at hi
    have hsplit : bs = bs.take i ++ bs[i] :: bs.drop (i + 1) := by
      rw [List.getElem_cons_drop, List.take_append_drop]
    rw [List.getElem_map, List.getElem_range', h _ _ _ hsplit, List.length_take]
    omega
  · rintro h front b back rfl
    have hget := congrArg (·[front.length]?) h
    simp only [List.map_append, List.map_cons, List.length_append, List.length_cons] at hget
    rw [List.getElem?_append_right (by simp), List.length_map, Nat.sub_self,
      List.getElem?_cons_zero, List.getElem?_range' (by omega)] at hget
    have hnumber := Option.some.inj hget
    omega

/-- What every row keeps holds when all are read. -/
theorem foldlM_invariant {add : β → α → Except ε β} {P : β → Prop} {as : List α} {start b : β}
    (hstep : ∀ a ∈ as, ∀ b b', P b → add b a = .ok b' → P b') (hstart : P start)
    (h : as.foldlM add start = .ok b) : P b := by
  induction as generalizing start with
  | nil =>
    cases h
    exact hstart
  | cons a as ih =>
    rw [List.foldlM_cons] at h
    obtain ⟨b', hb', h⟩ := bind_eq_ok.mp h
    exact ih (fun a' ha' ↦ hstep a' (List.mem_cons_of_mem _ ha'))
      (hstep a List.mem_cons_self _ _ hstart hb') h

theorem exists_mem_of_forall₂_right {R : α → β → Prop} {as : List α} {bs : List β}
    (h : List.Forall₂ R as bs) {b : β} (hb : b ∈ bs) : ∃ a ∈ as, R a b := by
  induction h with
  | nil => cases hb
  | cons hab _ ih =>
    rcases List.mem_cons.mp hb with rfl | hb
    · exact ⟨_, List.mem_cons_self, hab⟩
    · obtain ⟨a, ha, hab⟩ := ih hb
      exact ⟨a, List.mem_cons_of_mem _ ha, hab⟩

theorem forall₂_and_right {R : α → β → Prop} {P : β → Prop} {as : List α} {bs : List β}
    (h : List.Forall₂ R as bs) (hP : ∀ b ∈ bs, P b) : List.Forall₂ (fun a b ↦ R a b ∧ P b) as bs := by
  induction h with
  | nil => exact .nil
  | cons hab _ ih =>
    rw [List.forall_mem_cons] at hP
    exact .cons ⟨hab, hP.1⟩ (ih hP.2)

/-- In a table without a key twice the value of a key is its row's. -/
theorem lookup_eq_some_iff_mem [BEq κ] [LawfulBEq κ] {rows : List (κ × β)}
    (hkeys : (rows.map Prod.fst).Nodup) {k : κ} {b : β} :
    rows.lookup k = some b ↔ (k, b) ∈ rows := by
  induction rows with
  | nil => simp
  | cons row rows ih =>
    obtain ⟨k', b'⟩ := row
    rw [List.map_cons, List.nodup_cons] at hkeys
    rw [List.lookup_cons, List.mem_cons, Prod.mk.injEq]
    by_cases hk : k = k'
    · subst hk
      have hnot : (k, b) ∉ rows := fun h ↦ hkeys.1 (List.mem_map.mpr ⟨_, h, rfl⟩)
      simp [hnot, eq_comm]
    · rw [beq_eq_false_iff_ne.mpr hk]
      simpa [hk] using ih hkeys.2

end Filling

namespace Json

/-! ## Fields -/

/-- The keys are these, in any order. -/
def HasKeys (ms : List (Text × Json)) (ks : List Text) : Prop :=
  (∀ k ∈ ks, k ∈ ms.map Prod.fst) ∧ ∀ k ∈ ms.map Prod.fst, k ∈ ks

instance (ms : List (Text × Json)) (ks : List Text) : Decidable (HasKeys ms ks) :=
  inferInstanceAs (Decidable (_ ∧ _))

variable {ms : List (Text × Json)} {vs : List Json} {k : Text} {v : Json}

theorem Keyed.item (h : Keyed (.array vs)) (hv : v ∈ vs) : v.Keyed := by
  induction vs with
  | nil => cases hv
  | cons w vs ih =>
    rcases List.mem_cons.mp hv with rfl | hv
    · exact h.1
    · exact ih h.2 hv

theorem mem_of_lookup {β : Type u} {rows : List (Text × β)} {b : β} (h : rows.lookup k = some b) :
    (k, b) ∈ rows := by
  obtain ⟨front, back, rfl, -⟩ := List.lookup_eq_some_iff.mp h
  simp

theorem Keyed.field (h : Keyed (.object ms)) (hv : ms.lookup k = some v) : v.Keyed :=
  keyedMembers_iff.mp h.2 _ (mem_of_lookup hv)

theorem hasKeys_of_eq {ks : List Text} (h : ms.map Prod.fst = ks) : HasKeys ms ks :=
  h ▸ ⟨fun _ hk ↦ hk, fun _ hk ↦ hk⟩

theorem Floats.item {p : List Char → Prop} (h : Floats p (.array vs)) (hv : v ∈ vs) :
    v.Floats p := floats_array.mp h v hv

theorem Floats.field {p : List Char → Prop} (h : Floats p (.object ms))
    (hv : ms.lookup k = some v) : v.Floats p := floats_object.mp h _ (mem_of_lookup hv)

/-! ## Reading values -/

/-- `dict.get` -/
def field (ms : List (Text × Json)) (k : Text) : Json := (ms.lookup k).getD .null

/-- The member at a place is found by its key. -/
theorem field_at (hkeys : (ms.map Prod.fst).Nodup) {i : ℕ} (h : ms[i]? = some (k, v)) :
    field ms k = v := by
  rw [field, (lookup_eq_some_iff_mem hkeys).mpr (List.mem_of_getElem? h), Option.getD_some]

theorem Keyed.get (h : Keyed (.object ms)) (k : Text) : (Json.field ms k).Keyed := by
  rw [Json.field]
  cases hlookup : ms.lookup k with
  | none => trivial
  | some v => exact h.field hlookup

theorem Floats.get {p : List Char → Prop} (h : Floats p (.object ms)) (k : Text) :
    (Json.field ms k).Floats p := by
  rw [Json.field]
  cases hlookup : ms.lookup k with
  | none => trivial
  | some v => exact h.field hlookup

/-- The value is an object that holds these members and no others, in any order. -/
def Says (ns : List (Text × Json)) (value : Json) : Prop :=
  ∃ ms, value = .object ms ∧ HasKeys ms (ns.map Prod.fst) ∧ ∀ n ∈ ns, field ms n.1 = n.2

theorem says_object {ns : List (Text × Json)} (hkeys : (ns.map Prod.fst).Nodup) :
    Says ns (.object ns) := by
  refine ⟨ns, rfl, hasKeys_of_eq rfl, fun n hn ↦ ?_⟩
  rw [field, (lookup_eq_some_iff_mem hkeys).mpr hn, Option.getD_some]

/-- An object says one thing under each key. -/
theorem Says.unique {ns ns' : List (Text × Json)} (h : Says ns v) (h' : Says ns' v)
    (hkeys : ns.map Prod.fst = ns'.map Prod.fst) : ns = ns' := by
  obtain ⟨ms, rfl, -, hns⟩ := h
  obtain ⟨_, ⟨⟩, -, hns'⟩ := h'
  refine List.ext_getElem (by simpa using congrArg List.length hkeys) fun i hi hi' ↦ ?_
  have hkey : ns[i].1 = ns'[i].1 := by
    have hget := congrArg (·[i]?) hkeys
    simpa [List.getElem?_eq_getElem hi, List.getElem?_eq_getElem hi'] using hget
  refine Prod.ext hkey ?_
  rw [← hns _ (List.getElem_mem hi), ← hns' _ (List.getElem_mem hi'), hkey]

def asText : Json → Option Text
  | .string s => some s
  | _ => none

/-- `type(value) is int` -/
def asInt : Json → Option ℤ
  | .int n => some n
  | _ => none

def asBool : Json → Option Bool
  | .bool b => some b
  | _ => none

def asItems : Json → Option (List Json)
  | .array vs => some vs
  | _ => none

def asMembers : Json → Option (List (Text × Json))
  | .object ms => some ms
  | _ => none

@[simp] theorem asText_eq_some {s : Text} : v.asText = some s ↔ v = .string s := by
  cases v <;> simp [asText]

@[simp] theorem asInt_eq_some {n : ℤ} : v.asInt = some n ↔ v = .int n := by
  cases v <;> simp [asInt]

@[simp] theorem asItems_eq_some : v.asItems = some vs ↔ v = .array vs := by
  cases v <;> simp [asItems]

@[simp] theorem asMembers_eq_some : v.asMembers = some ms ↔ v = .object ms := by
  cases v <;> simp [asMembers]

/-- A list of strings. -/
def asTexts (v : Json) : Option (List Text) := v.asItems.bind (·.mapM asText)

/-- A list of integers. -/
def asInts (v : Json) : Option (List ℤ) := v.asItems.bind (·.mapM asInt)

/-- What is written item by item is read item by item. -/
theorem mapM_written {α : Type} {f : α → Json} {g : Json → Option α} (h : ∀ a, g (f a) = some a)
    (as : List α) : (as.map f).mapM g = some as := by
  induction as with
  | nil => rfl
  | cons a as ih => simp [List.mapM_cons, h, ih]

theorem asTexts_map (ss : List Text) : asTexts (.array (ss.map .string)) = some ss := by
  have hread : (ss.map Json.string).mapM asText = some ss := mapM_written (f := .string) (fun _ ↦ rfl) ss
  exact hread

theorem asInts_map (ns : List ℤ) : asInts (.array (ns.map .int)) = some ns := by
  have hread : (ns.map Json.int).mapM asInt = some ns := mapM_written (f := .int) (fun _ ↦ rfl) ns
  exact hread

/-! ## Comparing values -/

mutual

/-- Whether two values are the same, computed. -/
def same : Json → Json → Bool
  | .null, .null => true
  | .bool b, .bool b' => b == b'
  | .int n, .int n' => n == n'
  | .float spelling, .float spelling' => spelling == spelling'
  | .string s, .string s' => s == s'
  | .array vs, .array ws => sameItems vs ws
  | .object ms, .object ns => sameMembers ms ns
  | _, _ => false

def sameItems : List Json → List Json → Bool
  | [], [] => true
  | v :: vs, w :: ws => same v w && sameItems vs ws
  | _, _ => false

def sameMembers : List (Text × Json) → List (Text × Json) → Bool
  | [], [] => true
  | (k, v) :: ms, (k', v') :: ns => k == k' && (same v v' && sameMembers ms ns)
  | _, _ => false

end

mutual

theorem eq_of_same : ∀ {v w : Json}, same v w = true → v = w
  | .null, w, h => by cases w <;> simp_all [same]
  | .bool b, w, h => by cases w <;> simp_all [same]
  | .int n, w, h => by cases w <;> simp_all [same]
  | .float s, w, h => by cases w <;> simp_all [same]
  | .string s, w, h => by cases w <;> simp_all [same]
  | .array vs, w, h => by
    cases w with
    | array ws => rw [eq_of_sameItems h]
    | _ => cases h
  | .object ms, w, h => by
    cases w with
    | object ns => rw [eq_of_sameMembers h]
    | _ => cases h

theorem eq_of_sameItems : ∀ {vs ws : List Json}, sameItems vs ws = true → vs = ws
  | [], [], _ => rfl
  | [], _ :: _, h => by cases h
  | _ :: _, [], h => by cases h
  | v :: vs, w :: ws, h => by
    obtain ⟨hv, hvs⟩ := Bool.and_eq_true_iff.mp h
    rw [eq_of_same hv, eq_of_sameItems hvs]

theorem eq_of_sameMembers : ∀ {ms ns : List (Text × Json)}, sameMembers ms ns = true → ms = ns
  | [], [], _ => rfl
  | [], _ :: _, h => by cases h
  | _ :: _, [], h => by cases h
  | (k, v) :: ms, (k', v') :: ns, h => by
    obtain ⟨hk, h⟩ := Bool.and_eq_true_iff.mp h
    obtain ⟨hv, hms⟩ := Bool.and_eq_true_iff.mp h
    rw [eq_of_beq hk, eq_of_same hv, eq_of_sameMembers hms]

end

mutual

theorem same_self : ∀ v : Json, same v v = true
  | .null => rfl
  | .bool _ | .int _ | .float _ | .string _ => by simp [same]
  | .array vs => sameItems_self vs
  | .object ms => sameMembers_self ms

theorem sameItems_self : ∀ vs : List Json, sameItems vs vs = true
  | [] => rfl
  | v :: vs => by rw [sameItems, same_self v, sameItems_self vs, Bool.and_self]

theorem sameMembers_self : ∀ ms : List (Text × Json), sameMembers ms ms = true
  | [] => rfl
  | (k, v) :: ms => by
    rw [sameMembers, same_self v, sameMembers_self ms, Bool.and_self, Bool.and_true, beq_self_eq_true]

end

instance : DecidableEq Json := fun v w ↦
  decidable_of_iff (same v w = true) ⟨eq_of_same, fun h ↦ h ▸ same_self v⟩

/-- What a text is read as, computed. -/
theorem loads?_of_same {cs : List Char} (h : (loads? cs).any (same v) = true) :
    loads? cs = some v := by
  obtain ⟨w, hw, hsame⟩ := (Option.any_eq_true ..).mp h
  rw [hw, eq_of_same hsame]

/-! ## Values in order -/

theorem sortItems_eq_map (vs : List Json) : sortItems vs = vs.map sortKeys := by
  induction vs with
  | nil => rfl
  | cons v vs ih => rw [sortItems, List.map_cons, ih]

/-- An array of values in order is in order. -/
theorem sortKeys_array (h : ∀ v ∈ vs, v.sortKeys = v) : (array vs).sortKeys = array vs := by
  rw [sortKeys, sortItems_eq_map, List.map_congr_left h, List.map_id']

/-- An object is in order where its keys and their values are. -/
theorem sortKeys_object (hkeys : (ms.map Prod.fst).Pairwise (· ≤ ·))
    (h : ∀ m ∈ ms, m.2.sortKeys = m.2) : (object ms).sortKeys = object ms := by
  have hvalues : sortMembers ms = ms := by
    rw [sortMembers_eq_map]
    exact (List.map_congr_left fun m hm ↦ by rw [h m hm]).trans (List.map_id' ms)
  rw [sortKeys, hvalues, (List.pairwise_map.mp hkeys).insertionSort_eq]

theorem keyed_array (h : ∀ v ∈ vs, v.Keyed) : (array vs).Keyed := by
  rw [Keyed]
  induction vs with
  | nil => trivial
  | cons v vs ih => exact ⟨h v List.mem_cons_self, ih fun w hw ↦ h w (List.mem_cons_of_mem _ hw)⟩

theorem keyed_object (hkeys : (ms.map Prod.fst).Nodup) (h : ∀ m ∈ ms, m.2.Keyed) :
    (object ms).Keyed := ⟨hkeys, keyedMembers_iff.mpr h⟩

/-- Members that are sorted by their keys, which are distinct, stand in one order. -/
theorem sort_members_eq {ms ns : List (Text × Json)} (hperm : ms.Perm ns)
    (hkeys : (ms.map Prod.fst).Nodup) :
    ms.insertionSort (fun m m' ↦ m.1 ≤ m'.1) = ns.insertionSort fun m m' ↦ m.1 ≤ m'.1 := by
  have hsort := (ms.perm_insertionSort fun m m' ↦ m.1 ≤ m'.1).trans
    (hperm.trans (ns.perm_insertionSort fun m m' ↦ m.1 ≤ m'.1).symm)
  refine hsort.eq_of_pairwise ?_ (ms.pairwise_insertionSort _) (ns.pairwise_insertionSort _)
  rintro ⟨k, v⟩ ⟨k', v'⟩ hm hm' hle hge
  obtain rfl : k = k' := le_antisymm hle hge
  rw [List.mem_insertionSort] at hm hm'
  have hv := (lookup_eq_some_iff_mem hkeys).mpr hm
  have hv' := (lookup_eq_some_iff_mem hkeys).mpr (hperm.mem_iff.mpr hm')
  rw [Option.some.inj (hv.symm.trans hv')]

mutual

theorem sortKeys_sortKeys : ∀ v : Json, v.sortKeys.sortKeys = v.sortKeys
  | .null | .bool _ | .int _ | .float _ | .string _ => rfl
  | .array vs => by
    rw [sortKeys, sortKeys_array]
    exact sortItems_fixed vs
  | .object ms => by
    rw [sortKeys]
    refine sortKeys_object (List.pairwise_map.mpr (List.pairwise_insertionSort _ _)) fun m hm ↦ ?_
    exact sortMembers_fixed ms m ((List.mem_insertionSort _).mp hm)

theorem sortItems_fixed : ∀ vs : List Json, ∀ v ∈ sortItems vs, v.sortKeys = v
  | [], _, h => by cases h
  | w :: vs, v, h => by
    rcases List.mem_cons.mp h with rfl | h
    · exact sortKeys_sortKeys w
    · exact sortItems_fixed vs v h

theorem sortMembers_fixed : ∀ ms : List (Text × Json), ∀ m ∈ sortMembers ms, m.2.sortKeys = m.2
  | [], _, h => by cases h
  | (k, w) :: ms, m, h => by
    rcases List.mem_cons.mp h with rfl | h
    · exact sortKeys_sortKeys w
    · exact sortMembers_fixed ms m h

end

/-- A value that is written as it stands. -/
structure InOrder (v : Json) : Prop where
  sorted : v.sortKeys = v
  keyed : v.Keyed

theorem inOrder_sortKeys (h : v.Keyed) : InOrder v.sortKeys := ⟨sortKeys_sortKeys v, h.sortKeys⟩

theorem inOrder_string (s : Text) : InOrder (.string s) := ⟨rfl, trivial⟩

theorem inOrder_bool (b : Bool) : InOrder (.bool b) := ⟨rfl, trivial⟩

theorem inOrder_null : InOrder .null := ⟨rfl, trivial⟩

theorem inOrder_int (n : ℤ) : InOrder (.int n) := ⟨rfl, trivial⟩

theorem inOrder_float (spelling : List Char) : InOrder (.float spelling) := ⟨rfl, trivial⟩

theorem inOrder_array (h : ∀ v ∈ vs, InOrder v) : InOrder (.array vs) :=
  ⟨sortKeys_array fun v hv ↦ (h v hv).sorted, keyed_array fun v hv ↦ (h v hv).keyed⟩

theorem inOrder_map {α : Type u} {f : α → Json} (h : ∀ a, InOrder (f a)) (as : List α) :
    InOrder (.array (as.map f)) := by
  refine inOrder_array fun v hv ↦ ?_
  obtain ⟨a, -, rfl⟩ := List.mem_map.mp hv
  exact h a

/-- An object whose keys are these, which are in order. -/
theorem inOrder_object (ks : List Text) (hms : ms.map Prod.fst = ks)
    (hks : ks.Pairwise (· ≤ ·) ∧ ks.Nodup) (h : ∀ m ∈ ms, InOrder m.2) :
    InOrder (.object ms) where
  sorted := sortKeys_object (hms ▸ hks.1) fun m hm ↦ (h m hm).sorted
  keyed := keyed_object (hms ▸ hks.2) fun m hm ↦ (h m hm).keyed

/-! ## Floats -/

mutual

/-- The value, every float of it spelled as `float` says. -/
def respell (float : List Char → List Char) : Json → Json
  | .float spelling => .float (float spelling)
  | .array vs => .array (respellItems float vs)
  | .object ms => .object (respellMembers float ms)
  | v => v

def respellItems (float : List Char → List Char) : List Json → List Json
  | [] => []
  | v :: vs => respell float v :: respellItems float vs

def respellMembers (float : List Char → List Char) : List (Text × Json) → List (Text × Json)
  | [] => []
  | (k, v) :: ms => (k, respell float v) :: respellMembers float ms

end

theorem respellMembers_keys (float : List Char → List Char) (ms : List (Text × Json)) :
    (respellMembers float ms).map Prod.fst = ms.map Prod.fst := by
  induction ms with
  | nil => rfl
  | cons m ms ih => rw [respellMembers, List.map_cons, List.map_cons, ih]

mutual

theorem Keyed.respell {float : List Char → List Char} : ∀ {v : Json}, Keyed v →
    Keyed (v.respell float)
  | .null, h | .bool _, h | .int _, h | .float _, h | .string _, h => h
  | .array _, h => KeyedItems.respell h
  | .object ms, h => ⟨(respellMembers_keys float ms).symm ▸ h.1, KeyedMembers.respell h.2⟩

theorem KeyedItems.respell {float : List Char → List Char} : ∀ {vs : List Json}, KeyedItems vs →
    KeyedItems (respellItems float vs)
  | [], h => h
  | _ :: _, h => ⟨h.1.respell, KeyedItems.respell h.2⟩

theorem KeyedMembers.respell {float : List Char → List Char} : ∀ {ms : List (Text × Json)},
    KeyedMembers ms → KeyedMembers (respellMembers float ms)
  | [], h => h
  | _ :: _, h => ⟨h.1.respell, KeyedMembers.respell h.2⟩

end

section Respelled

variable {float : List Char → List Char} {p : List Char → Prop}

mutual

theorem floats_respell (h : ∀ spelling, p (float spelling)) :
    ∀ v : Json, (v.respell float).Floats p
  | .null | .bool _ | .int _ | .string _ => trivial
  | .float spelling => h spelling
  | .array vs => floatsItems_respell h vs
  | .object ms => floatsMembers_respell h ms

theorem floatsItems_respell (h : ∀ spelling, p (float spelling)) :
    ∀ vs : List Json, FloatsItems p (respellItems float vs)
  | [] => trivial
  | v :: vs => ⟨floats_respell h v, floatsItems_respell h vs⟩

theorem floatsMembers_respell (h : ∀ spelling, p (float spelling)) :
    ∀ ms : List (Text × Json), FloatsMembers p (respellMembers float ms)
  | [] => trivial
  | (_, v) :: ms => ⟨floats_respell h v, floatsMembers_respell h ms⟩

end

mutual

/-- Floats that are spelled so already stay as they are. -/
theorem respell_eq_self :
    ∀ {v : Json}, v.Floats (fun spelling ↦ float spelling = spelling) → v.respell float = v
  | .null, _ | .bool _, _ | .int _, _ | .string _, _ => rfl
  | .float _, h => congrArg Json.float h
  | .array _, h => congrArg Json.array (respellItems_eq_self h)
  | .object _, h => congrArg Json.object (respellMembers_eq_self h)

theorem respellItems_eq_self : ∀ {vs : List Json},
    FloatsItems (fun spelling ↦ float spelling = spelling) vs → respellItems float vs = vs
  | [], _ => rfl
  | _ :: _, h => congrArg₂ List.cons (respell_eq_self h.1) (respellItems_eq_self h.2)

theorem respellMembers_eq_self : ∀ {ms : List (Text × Json)},
    FloatsMembers (fun spelling ↦ float spelling = spelling) ms → respellMembers float ms = ms
  | [], _ => rfl
  | (k, _) :: _, h => congrArg₂ (fun v ms ↦ (k, v) :: ms) (respell_eq_self h.1)
      (respellMembers_eq_self h.2)

end

end Respelled

end Json

end Conjectures.Lib
