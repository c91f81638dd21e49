import Conjectures.Allowlist.Documents
import Mathlib.Data.List.Nodup
import Mathlib.Data.List.Perm.Basic

/-!
# Merging allowlists

`merge_task_allowlists`: the documents of several tiers as one.  The merge checks that tiers,
theorems, indices and task ids are distinct, and what it writes is the documents joined.

Dictionaries are built as Python builds them, a later value taking the place of an earlier one.  A
refusal is an invalid argument or the exception Python raises of its own.  What the merge does not
ask is that types, bundles and problems are told apart across the documents, as the loader does.
-/

namespace Conjectures.Allowlist

open Lib Lib.Json

/-- Why no allowlist is made. -/
inductive Refusal where
  | invalidArgument (message : String)
  | invalidManifest (message : String)
  /-- an exception of Python's own -/
  | raised
  deriving DecidableEq

/-! ## The merge -/

/-- `table[key] = value` -/
def put (table : List (Text × Json)) (member : Text × Json) : List (Text × Json) :=
  if member.1 ∈ table.map Prod.fst then
    table.map fun m ↦ if m.1 = member.1 then member else m
  else table ++ [member]

/-- The dictionary of the members: a key that comes again gets the later value. -/
def dict (members : List (Text × Json)) : List (Text × Json) := members.foldl put []

/-- `row[key]` -/
def item (key : Text) (row : Json) : Except Refusal Json :=
  need (row.asMembers.bind (·.lookup key)) .raised

/-- `document[key]`, for every document, one after another. -/
def collect {α : Type} (read : Json → Option (List α)) (key : Text)
    (documents : List (List (Text × Json))) : Except Refusal (List α) := do
  let parts ← documents.mapM fun document ↦ need ((document.lookup key).bind read) .raised
  return parts.flatten

/-- What the documents of a merge must share. -/
def sharedKeys : List Text :=
  [text "audit_date_utc", text "default", text "repository_commit", text "schema_version"]

/-- The tiers that are in an order are those that have a policy. -/
def SameTiers (tierOrder : List Json) (policies : List (Text × Json)) : Prop :=
  (∀ tier ∈ tierOrder, tier ∈ policies.map fun policy ↦ .string policy.1) ∧
    ∀ policy ∈ policies, .string policy.1 ∈ tierOrder

instance (tierOrder : List Json) (policies : List (Text × Json)) :
    Decidable (SameTiers tierOrder policies) := inferInstanceAs (Decidable (_ ∧ _))

/-- `merge_task_allowlists`.  Where the documents load, the values that are compared are strings
and integers. -/
def mergeTaskAllowlists (py : Python) (allowlists : List ByteArray) :
    Except Refusal ByteArray := do
  let documents ← allowlists.mapM fun content ↦
    need (((decode? content).bind py.loads).bind asMembers) .raised
  let first ← need documents.head? (.invalidArgument "no tier allowlists to merge")
  require (∀ document ∈ documents, ∀ key ∈ sharedKeys, field document key = field first key)
    (.invalidArgument "tier allowlists do not share one release identity")
  let tierOrder ← collect asItems (text "tier_order") documents
  let policies ← collect asMembers (text "tier_policies") documents
  let sources ← collect asItems (text "allowed_source_theorems") documents
  let tasks ← collect asItems (text "allowed_task_bundles") documents
  let theorems ← sources.mapM (item (text "theorem"))
  let indices ← sources.mapM (item (text "index"))
  let taskIds ← tasks.mapM (item (text "task_id"))
  require (tierOrder.Nodup ∧ SameTiers tierOrder (dict policies) ∧ theorems.Nodup ∧
    indices.Nodup ∧ taskIds.Nodup) (.invalidArgument "merged tier identities are duplicated")
  let written ← need (pretty (.object
    [(text "allowed_source_theorems", .array sources),
      (text "allowed_task_bundles", .array tasks),
      (text "audit_date_utc", field first (text "audit_date_utc")),
      (text "default", field first (text "default")),
      (text "repository_commit", field first (text "repository_commit")),
      (text "schema_version", field first (text "schema_version")),
      (text "tier_order", .array tierOrder),
      (text "tier_policies", .object (dict policies))])) .raised
  return encode written

/-! ## Joined documents -/

namespace Document

/-- The documents as one, of the release of the first. -/
def join (first : Document) (rest : List Document) : Document where
  auditDateUtc := first.auditDateUtc
  repositoryCommit := first.repositoryCommit
  tiers := (first :: rest).flatMap (·.tiers)
  sources := (first :: rest).flatMap (·.sources)
  tasks := (first :: rest).flatMap (·.tasks)

/-- The documents are of one release. -/
def OneRelease (first : Document) (rest : List Document) : Prop :=
  ∀ d ∈ first :: rest, d.auditDateUtc = first.auditDateUtc ∧
    d.repositoryCommit = first.repositoryCommit

/-- What a merge checks of the documents. -/
structure Mergeable (first : Document) (rest : List Document) : Prop where
  release : OneRelease first rest
  tiers : ((join first rest).tiers.map Prod.fst).Nodup
  theorems : ((join first rest).sources.map (·.theoremName)).Nodup
  indices : ((join first rest).sources.map (·.index)).Nodup
  taskIds : ((join first rest).tasks.map (·.taskId)).Nodup

end Document

/-! ### What a merge writes -/

variable {py : Python} {first : Document} {rest : List Document}

theorem foldl_put {table members : List (Text × Json)}
    (hkeys : ((table ++ members).map Prod.fst).Nodup) :
    members.foldl put table = table ++ members := by
  induction members generalizing table with
  | nil => simp
  | cons m members ih =>
    have hfresh : m.1 ∉ table.map Prod.fst := by
      rw [List.map_append, List.nodup_append] at hkeys
      exact fun hmem ↦ hkeys.2.2 _ hmem _ (by simp) rfl
    rw [List.foldl_cons, put, if_neg hfresh, ih (by simpa using hkeys)]
    simp

theorem dict_of_nodup {members : List (Text × Json)} (hkeys : (members.map Prod.fst).Nodup) :
    dict members = members := foldl_put hkeys

theorem collect_eq {α : Type} {read : Json → Option (List α)} {key : Text} {f : Document → List α}
    {ds : List Document} (h : ∀ d ∈ ds, ((d.members.lookup key).bind read) = some (f d)) :
    collect read key (ds.map Document.members) = .ok (ds.flatMap f) := by
  have hparts : (ds.map Document.members).mapM (fun document ↦
      (need ((document.lookup key).bind read) .raised : Except Refusal _)) =
        .ok (ds.map f) := by
    rw [mapM_eq_ok, List.forall₂_map_left_iff, List.forall₂_map_right_iff, List.forall₂_same]
    exact fun d hd ↦ need_eq_ok.mpr (h d hd)
  rw [collect, hparts, List.flatMap_def]
  rfl

theorem lookup_members (d : Document) {i : ℕ} {k : Text} {v : Json}
    (h : d.members[i]? = some (k, v)) : d.members.lookup k = some v :=
  (lookup_eq_some_iff_mem (show (d.members.map Prod.fst).Nodup from documentKeys_ordered.2)).mpr
    (List.mem_of_getElem? h)

theorem mapM_item {α : Type} {row : α → Json} {k : Text} {f : α → Json}
    (h : ∀ a, item k (row a) = .ok (f a)) (as : List α) :
    (as.map row).mapM (item k) = .ok (as.map f) := by
  rw [mapM_eq_ok, List.forall₂_map_left_iff, List.forall₂_map_right_iff, List.forall₂_same]
  exact fun a _ ↦ h a

theorem item_source (source : SourceRow) {i : ℕ} {k : Text} {v : Json}
    (h : (sourceMembers source)[i]? = some (k, v)) : item k (sourceJson source) = .ok v :=
  need_eq_ok.mpr ((lookup_eq_some_iff_mem
    (show ((sourceMembers source).map Prod.fst).Nodup from sourceKeys_ordered.2)).mpr
      (List.mem_of_getElem? h))

theorem item_taskId (task : TaskRow) :
    item (text "task_id") (taskJson task) = .ok (.string task.taskId) := by
  have hid : (taskMembers task)[8]? = some (text "task_id", .string task.taskId) := rfl
  exact need_eq_ok.mpr ((lookup_eq_some_iff_mem
    (show ((taskMembers task).map Prod.fst).Nodup from taskKeys_ordered.2)).mpr
      (List.mem_of_getElem? hid))

theorem nodup_map_string {α : Type} {f : α → Text} {as : List α} :
    (as.map fun a ↦ Json.string (f a)).Nodup ↔ (as.map f).Nodup := by
  rw [← List.nodup_map_iff (fun _ _ h ↦ Json.string.inj h : Function.Injective Json.string),
    List.map_map]
  rfl

theorem nodup_map_int {α : Type} {f : α → ℤ} {as : List α} :
    (as.map fun a ↦ Json.int (f a)).Nodup ↔ (as.map f).Nodup := by
  rw [← List.nodup_map_iff (fun _ _ h ↦ Json.int.inj h : Function.Injective Json.int),
    List.map_map]
  rfl

/-- The policies of the documents are those of the document they are joined to. -/
theorem policies_perm (ds : List Document) :
    (ds.flatMap fun d ↦ sortedPolicies d.tiers).Perm (policyMembers (ds.flatMap (·.tiers))) := by
  rw [policyMembers, List.map_flatMap]
  exact List.Perm.flatMap_left _ fun d _ ↦ sortedPolicies_perm d.tiers

theorem policies_keys (ds : List Document) :
    ((ds.flatMap fun d ↦ sortedPolicies d.tiers).map Prod.fst).Perm
      ((ds.flatMap (·.tiers)).map Prod.fst) :=
  policyMembers_keys _ ▸ (policies_perm ds).map Prod.fst

/-- Objects whose members have the same values in order are the same in order. -/
theorem sortKeys_object_congr {ms ns : List (Text × Json)}
    (h : ms.map (fun m ↦ (m.1, m.2.sortKeys)) = ns.map fun m ↦ (m.1, m.2.sortKeys)) :
    (Json.object ms).sortKeys = (Json.object ns).sortKeys := by
  rw [sortKeys, sortKeys, sortMembers_eq_map, sortMembers_eq_map, h]

theorem sortKeys_policies {ds : List Document}
    (htiers : ((ds.flatMap (·.tiers)).map Prod.fst).Nodup) :
    (Json.object (ds.flatMap fun d ↦ sortedPolicies d.tiers)).sortKeys =
      (Json.object (sortedPolicies (ds.flatMap (·.tiers)))).sortKeys := by
  have hsorted : ∀ m ∈ ds.flatMap fun d ↦ sortedPolicies d.tiers, m.2.sortKeys = m.2 := by
    intro m hm
    obtain ⟨tier, -, rfl⟩ := List.mem_map.mp ((policies_perm ds).mem_iff.mp hm)
    exact (inOrder_policyJson _).sorted
  rw [(inOrder_sortedPolicies htiers).sorted, sortKeys, sortMembers_eq_map,
    List.map_congr_left (g := id) fun m hm ↦ by rw [hsorted m hm]; rfl, List.map_id,
    sort_members_eq (policies_perm ds) ((policies_keys ds).nodup_iff.mpr htiers)]
  rfl

/-- The documents as they are joined are written as the document they are joined to. -/
theorem pretty_joined (htiers : ((Document.join first rest).tiers.map Prod.fst).Nodup) :
    pretty (.object
      [(text "allowed_source_theorems", .array ((Document.join first rest).sources.map sourceJson)),
        (text "allowed_task_bundles", .array ((Document.join first rest).tasks.map taskJson)),
        (text "audit_date_utc", .string first.auditDateUtc),
        (text "default", .string (text "DENY")),
        (text "repository_commit", .string first.repositoryCommit),
        (text "schema_version", .int taskPoolSchemaVersion),
        (text "tier_order",
          .array (((Document.join first rest).tiers.map Prod.fst).map .string)),
        (text "tier_policies",
          .object ((first :: rest).flatMap fun d ↦ sortedPolicies d.tiers))]) =
      pretty (Document.join first rest).json := by
  rw [pretty, pretty, Document.json, sortKeys_object_congr]
  simp only [Document.members, List.map_cons, List.map_nil, sortKeys_policies htiers]
  rfl

/-- A merge reads the documents that were written. -/
theorem decode_bytes {ds : List Document} {allowlists : List ByteArray}
    (h : List.Forall₂ (fun d b ↦ (d.tiers.map Prod.fst).Nodup ∧ d.bytes = some b) ds allowlists) :
    (allowlists.mapM fun content ↦
      need (((decode? content).bind py.loads).bind asMembers) Refusal.raised) =
        .ok (ds.map Document.members) := by
  rw [mapM_eq_ok, List.forall₂_map_right_iff]
  refine h.flip.imp fun b d ⟨htiers, hb⟩ ↦ need_eq_ok.mpr ?_
  obtain ⟨cs, hcs, hloads⟩ := Option.bind_eq_some_iff.mp (d.loads htiers hb)
  rw [hcs, Option.bind_some, py.loads_strict hloads, respell_eq_self d.floats, Option.bind_some]
  rfl

/-- The documents share what they must where they are of one release. -/
theorem shared_iff : (∀ document ∈ (first :: rest).map Document.members, ∀ key ∈ sharedKeys,
    field document key = field first.members key) ↔ Document.OneRelease first rest := by
  rw [List.forall_mem_map]
  refine forall₂_congr fun d _ ↦ ?_
  simp only [sharedKeys, List.forall_mem_cons, List.not_mem_nil, false_implies, implies_true,
    and_true]
  rw [field_members d (i := 2) rfl, field_members d (i := 3) rfl, field_members d (i := 4) rfl,
    field_members d (i := 5) rfl, field_members first (i := 2) rfl,
    field_members first (i := 3) rfl, field_members first (i := 4) rfl,
    field_members first (i := 5) rfl]
  simp

/-- Documents that were written are merged where they are mergeable, and joined. -/
theorem mergeTaskAllowlists_bytes {allowlists : List ByteArray}
    (h : List.Forall₂ (fun d b ↦ (d.tiers.map Prod.fst).Nodup ∧ d.bytes = some b)
      (first :: rest) allowlists) {out : ByteArray} :
    mergeTaskAllowlists py allowlists = .ok out ↔
      Document.Mergeable first rest ∧ (Document.join first rest).bytes = some out := by
  have horder : collect asItems (text "tier_order") ((first :: rest).map Document.members) =
      .ok (((Document.join first rest).tiers.map Prod.fst).map .string) := by
    rw [collect_eq fun d _ ↦ by rw [lookup_members d (i := 6) rfl]; rfl]
    simp [Document.join, List.map_flatMap]
  have hpolicies : collect asMembers (text "tier_policies") ((first :: rest).map Document.members) =
      .ok ((first :: rest).flatMap fun d ↦ sortedPolicies d.tiers) :=
    collect_eq fun d _ ↦ by rw [lookup_members d (i := 7) rfl]; rfl
  have hsources : collect asItems (text "allowed_source_theorems")
      ((first :: rest).map Document.members) =
        .ok ((Document.join first rest).sources.map sourceJson) := by
    rw [collect_eq fun d _ ↦ by rw [lookup_members d (i := 0) rfl]; rfl]
    simp [Document.join, List.map_flatMap]
  have htasks : collect asItems (text "allowed_task_bundles")
      ((first :: rest).map Document.members) =
        .ok ((Document.join first rest).tasks.map taskJson) := by
    rw [collect_eq fun d _ ↦ by rw [lookup_members d (i := 1) rfl]; rfl]
    simp [Document.join, List.map_flatMap]
  have htheorems := mapM_item (k := text "theorem") (fun source ↦ item_source source (i := 3) rfl)
    (Document.join first rest).sources
  have hindices := mapM_item (k := text "index") (fun source ↦ item_source source (i := 0) rfl)
    (Document.join first rest).sources
  have htaskIds := mapM_item item_taskId (Document.join first rest).tasks
  rw [mergeTaskAllowlists, decode_bytes h]
  simp only [bind_eq_ok, need_eq_ok, require_eq_ok, Except.ok.injEq, exists_eq_left',
    List.map_cons, List.head?_cons, Option.some.injEq]
  rw [← List.map_cons, shared_iff, horder, hpolicies, hsources, htasks]
  rw [field_members first (i := 2) rfl, field_members first (i := 3) rfl,
    field_members first (i := 4) rfl, field_members first (i := 5) rfl]
  simp only [Except.ok.injEq, exists_eq_left', htheorems, hindices, htaskIds, nodup_map_string,
    nodup_map_int]
  have hnodup : (((Document.join first rest).tiers.map Prod.fst).map Json.string).Nodup ↔
      ((Document.join first rest).tiers.map Prod.fst).Nodup :=
    List.nodup_map_iff fun _ _ h ↦ Json.string.inj h
  have hdict (htiers : ((Document.join first rest).tiers.map Prod.fst).Nodup) :=
    dict_of_nodup ((policies_keys (first :: rest)).nodup_iff.mpr htiers)
  constructor
  · rintro ⟨-, hrelease, -, ⟨htiers, -, htheorems, hindices, htaskIds⟩, cs, hcs, hout⟩
    have htiers := hnodup.mp htiers
    rw [hdict htiers, pretty_joined htiers] at hcs
    exact ⟨⟨hrelease, htiers, htheorems, hindices, htaskIds⟩,
      Option.map_eq_some_iff.mpr ⟨cs, hcs, Except.ok.inj hout⟩⟩
  · rintro ⟨hmergeable, hout⟩
    obtain ⟨cs, hcs, rfl⟩ := Option.map_eq_some_iff.mp hout
    rw [hdict hmergeable.tiers, pretty_joined hmergeable.tiers]
    refine ⟨(), hmergeable.release, (), ⟨hnodup.mpr hmergeable.tiers, ⟨?_, ?_⟩,
      hmergeable.theorems, hmergeable.indices, hmergeable.taskIds⟩, cs, hcs, rfl⟩
    · intro tier htier
      obtain ⟨k, hk, rfl⟩ := List.mem_map.mp htier
      obtain ⟨policy, hpolicy, rfl⟩ :=
        List.mem_map.mp ((policies_keys (first :: rest)).mem_iff.mpr hk)
      exact List.mem_map.mpr ⟨policy, hpolicy, rfl⟩
    · intro policy hpolicy
      exact List.mem_map_of_mem ((policies_keys (first :: rest)).mem_iff.mp
        (List.mem_map_of_mem hpolicy))

end Conjectures.Allowlist
