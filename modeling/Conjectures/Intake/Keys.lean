import Conjectures.Intake.Collisions

/-!
# One key, one request

Every path keeps at most one submission under a key, and a write that comes second is refused
for the first.  The path of a transfer compares what is asked with what was bought, so it
answers a replay with its original and anything else with a conflict.  The two paths of a
browser answer with whatever the key bought: there the law holds of exactly the requests whose
key was used for nothing else.
-/

namespace Conjectures.Intake

open Lib Db Api

/-! ## Keys -/

/-- The submission is stored under the key of a caller. -/
def Carries : Caller × Uuid → Submission → Prop
  | (.coldkey address, key), s => s.signerIdx = some (address, key)
  | (.account id, key), s => s.sessionIdx = some (id, key)

theorem Owns.carries {r : Request} {s : Submission} (h : Owns r s) : Carries r.scope s := by
  cases r with
  | extrinsic r => exact h.1
  | web r => exact h.1

/-- Nothing else is recorded under a key that is carried. -/
theorem Recorded.not_carries {db db' : Database} {s s' : Submission} {scope : Caller × Uuid}
    (h : Recorded db s db') (hs : Carries scope s) (hs' : s' ∈ db.submissions.rows) :
    ¬ Carries scope s' := by
  obtain ⟨caller, key⟩ := scope
  cases caller with
  | coldkey address => exact not_taken h.signer hs' hs
  | account id => exact not_taken h.session hs' hs

/-! ## The invariant -/

/-- What was accepted is stored, under its own digest and alone under its key. -/
structure Keyed (svc : IntakeServices) (w : World) : Prop where
  signers : Unique Submission.signerIdx w.db.submissions.rows
  sessions : Unique Submission.sessionIdx w.db.submissions.rows
  accepted : ∀ r id, (r, id) ∈ w.accepted → ∃ s ∈ w.db.submissions.rows, s.id = id ∧ Owns r s ∧
    ∀ q, r = .extrinsic q → s.requestDigest = svc.digest (.extrinsic q)
  once : ∀ r r' id, (r, id) ∈ w.accepted → (r', id) ∈ w.accepted → r = r'
  digests : ∀ s ∈ w.db.submissions.rows, Foreign svc s.requestDigest ∨
    ∃ q, s.requestDigest = svc.digest (.extrinsic q) ∧ (.extrinsic q, s.id) ∈ w.accepted
  intents : ForeignIntents svc w.db

theorem keyed_start (svc : IntakeServices) : Keyed svc World.start where
  signers := by intro s hs; cases hs
  sessions := by intro s hs; cases hs
  accepted := by intro r id h; cases h
  once := by intro r r' id h; cases h
  digests := by intro s hs; cases hs
  intents := by intro i hi; cases hi

section Steps

variable {svc : IntakeServices} {w : World} {db' : Database} {s : Submission}

/-- The invariant says nothing of who waits, and nothing of the other tables. -/
theorem Keyed.of_same (h : Keyed svc w) (waiting : List (Call × TaskEntry))
    (hsame : SameSubmissions w.db db') (hintents : ForeignIntents svc db') :
    Keyed svc ⟨db', waiting, w.accepted⟩ := by
  have hrows : db'.submissions.rows = w.db.submissions.rows := congrArg Table.rows hsame
  exact
    { signers := by rw [hrows]; exact h.signers
      sessions := by rw [hrows]; exact h.sessions
      accepted := by rw [hrows]; exact h.accepted
      once := h.once
      digests := by rw [hrows]; exact h.digests
      intents := hintents }

/-- One more submission keeps the invariant, with a request it was accepted for or
without. -/
theorem Keyed.record (h : Keyed svc w) (waiting : List (Call × TaskEntry))
    {more : List (Request × Uuid)} (hrecorded : Recorded w.db s db')
    (hintents : ForeignIntents svc db')
    (hmore : ∀ r id, (r, id) ∈ more → id = s.id ∧ Owns r s ∧
      ∀ q, r = .extrinsic q → s.requestDigest = svc.digest (.extrinsic q))
    (honce : ∀ r r', (r, s.id) ∈ more → (r', s.id) ∈ more → r = r')
    (hdigest : Foreign svc s.requestDigest ∨
      ∃ q, s.requestDigest = svc.digest (.extrinsic q) ∧ (.extrinsic q, s.id) ∈ more) :
    Keyed svc ⟨db', waiting, more ++ w.accepted⟩ := by
  have hold : ∀ r id, (r, id) ∈ w.accepted → id ≠ s.id := by
    rintro r id hr rfl
    obtain ⟨s', hs', hid, -⟩ := h.accepted r _ hr
    exact hrecorded.fresh s' hs' hid
  have hlast : s ∈ db'.submissions.rows := by
    rw [hrecorded.rows]
    exact List.mem_append_right _ (List.mem_singleton.mpr rfl)
  refine ⟨?_, ?_, fun r id hr ↦ ?_, fun r r' id hr hr' ↦ ?_, fun s' hs' ↦ ?_, hintents⟩
  · rw [hrecorded.rows]
    exact h.signers.append hrecorded.signer
  · rw [hrecorded.rows]
    exact h.sessions.append hrecorded.session
  · rcases List.mem_append.mp hr with hr | hr
    · obtain ⟨rfl, howns⟩ := hmore r id hr
      exact ⟨s, hlast, rfl, howns⟩
    · obtain ⟨s', hs', hid⟩ := h.accepted r id hr
      refine ⟨s', ?_, hid⟩
      rw [hrecorded.rows]
      exact List.mem_append_left _ hs'
  · rcases List.mem_append.mp hr with hr | hr <;> rcases List.mem_append.mp hr' with hr' | hr'
    · obtain ⟨rfl, -⟩ := hmore r id hr
      exact honce r r' hr hr'
    · exact absurd (hmore r id hr).1 (hold r' id hr')
    · exact absurd (hmore r' id hr').1 (hold r id hr)
    · exact h.once r r' id hr hr'
  · rw [hrecorded.rows, List.mem_append, List.mem_singleton] at hs'
    rcases hs' with hs' | rfl
    · exact (h.digests s' hs').imp_right fun ⟨q, hq, hmem⟩ ↦ ⟨q, hq, List.mem_append_right _ hmem⟩
    · exact hdigest.imp_right fun ⟨q, hq, hmem⟩ ↦ ⟨q, hq, List.mem_append_left _ hmem⟩

/-- A stored submission with the digest of a distinct request was accepted for it. -/
theorem Keyed.accepted_of_digest (h : Keyed svc w) {r : ExtrinsicRequest}
    (hr : Distinct svc r) (hs : s ∈ w.db.submissions.rows)
    (hdigest : s.requestDigest = svc.digest (.extrinsic r)) :
    (.extrinsic r, s.id) ∈ w.accepted := by
  rcases h.digests s hs with hforeign | ⟨q, hq, hmem⟩
  · exact absurd hdigest (hforeign.ne hr)
  · cases hr _ (hq.symm.trans hdigest)
    exact hmem

/-- What was accepted under a key is stored under it. -/
theorem Keyed.carried (h : Keyed svc w) {r : Request} {id : Uuid} {scope : Caller × Uuid}
    (hr : (r, id) ∈ w.accepted) (hscope : r.scope = scope) :
    ∃ s ∈ w.db.submissions.rows, Carries scope s := by
  obtain ⟨s, hs, -, howns, -⟩ := h.accepted r id hr
  exact ⟨s, hs, hscope ▸ howns.carries⟩

end Steps

/-! ## Writes -/

/-- What a write leaves: nothing, or one submission of its request. -/
theorem write_spec {svc : IntakeServices} {entry : TaskEntry} {u : Upload} {call : Call}
    {db db' : Database} {view : SubmissionView}
    (h : write svc entry u call db = .ok (view, db')) :
    (view.replayed = true ∧ db' = db ∧ ∃ r signature, call = .extrinsic r signature ∧
        view.submission ∈ db.submissions.rows ∧
        view.submission.requestDigest = svc.digest (.extrinsic r)) ∨
      (view.replayed = false ∧ Recorded db view.submission db' ∧
        Owns call.request view.submission ∧
        (ForeignIntents svc db → ForeignIntents svc db') ∧
        (∀ q, call.request = .extrinsic q →
          view.submission.requestDigest = svc.digest (.extrinsic q)) ∧
        (Foreign svc view.submission.requestDigest ∨ ∃ q, call.request = .extrinsic q)) := by
  cases call with
  | extrinsic r signature =>
    rcases writeExtrinsic_spec h with ⟨hreplayed, hdb, hmem, -, hdigest⟩ |
      ⟨hreplayed, hintents, hrecorded, howns, hdigest⟩
    · exact Or.inl ⟨hreplayed, hdb, r, signature, rfl, hmem, hdigest⟩
    · refine Or.inr ⟨hreplayed, hrecorded, howns, fun hforeign ↦ hforeign.of_same hintents,
        fun q hq ↦ ?_, Or.inr ⟨r, rfl⟩⟩
      cases hq
      exact hdigest
  | web r signature expiresAt =>
    obtain ⟨hreplayed, hrecorded, howns, hforeign, hintents⟩ := writeWeb_spec h
    exact Or.inr ⟨hreplayed, hrecorded, howns, hintents, fun q hq ↦ (nomatch hq), Or.inl hforeign⟩

/-- How a write is answered. -/
theorem respond_write (c : Config) (w : World) (call : Call) (entry : TaskEntry) (u : Upload) :
    ((call, entry) ∉ w.waiting ∧ respond c w (.write call entry u) = (.pending, w)) ∨
      (∃ e, write c.services entry u call w.db = .error e ∧
        respond c w (.write call entry u) =
          (.refused e, { w with waiting := w.waiting.erase (call, entry) })) ∨
      ∃ view db, write c.services entry u call w.db = .ok (view, db) ∧
        ((view.replayed = true ∧ respond c w (.write call entry u) =
            (.original view.submission,
              { w with db, waiting := w.waiting.erase (call, entry) })) ∨
          (view.replayed = false ∧ respond c w (.write call entry u) =
            (.created view.submission, ⟨db, w.waiting.erase (call, entry),
              (call.request, view.submission.id) :: w.accepted⟩))) := by
  by_cases hmem : (call, entry) ∈ w.waiting
  · cases hwrite : write c.services entry u call w.db with
    | error e => exact Or.inr (Or.inl ⟨e, rfl, by simp only [respond, if_pos hmem, hwrite]⟩)
    | ok out =>
      obtain ⟨view, db⟩ := out
      refine Or.inr (Or.inr ⟨view, db, rfl, ?_⟩)
      cases hreplayed : view.replayed with
      | true => exact Or.inl ⟨rfl, by simp [respond, hmem, hwrite, hreplayed]⟩
      | false => exact Or.inr ⟨rfl, by simp [respond, hmem, hwrite, hreplayed]⟩
  · exact Or.inl ⟨hmem, by simp only [respond, if_neg hmem]⟩

/-- Every step keeps the invariant. -/
theorem keyed_step {c : Config} (w : World) (a : Action) (h : Keyed c.services w) :
    Keyed c.services (step c w a) := by
  cases a with
  | arrive call door =>
    simp only [step, respond]
    split
    · exact h
    · exact h
    · exact h.of_same _ rfl h.intents
  | abandon call entry => exact h.of_same _ rfl h.intents
  | elsewhere a =>
    have hforeign := elsewhere_foreign h.intents a
    rcases elsewhere_records c w.db a with hsame | ⟨s, hrecorded, i, hi, hdigest⟩
    · exact h.of_same _ hsame hforeign
    · exact @Keyed.record _ _ _ _ h _ [] hrecorded hforeign (fun r id hr ↦ nomatch hr)
        (fun r r' hr ↦ nomatch hr) (Or.inl (h.intents i hi _ hdigest))
  | write call entry u =>
    unfold step
    rcases respond_write c w call entry u with ⟨-, hr⟩ | ⟨e, -, hr⟩ |
      ⟨view, db, hwrite, ⟨hreplayed, hr⟩ | ⟨hreplayed, hr⟩⟩ <;> rw [hr]
    · exact h
    · exact h.of_same _ rfl h.intents
    · rcases write_spec hwrite with ⟨-, rfl, -⟩ | ⟨hfalse, -⟩
      · exact h.of_same _ rfl h.intents
      · rw [hfalse] at hreplayed
        cases hreplayed
    · rcases write_spec hwrite with ⟨htrue, -⟩ |
        ⟨-, hrecorded, howns, hintents, hdigest, hforeign⟩
      · rw [htrue] at hreplayed
        cases hreplayed
      · refine @Keyed.record _ _ _ _ h _ [(call.request, view.submission.id)] hrecorded
          (hintents h.intents) (fun r id hr ↦ ?_) (fun r r' hr hr' ↦ ?_) ?_
        · cases List.mem_singleton.mp hr
          exact ⟨rfl, howns, hdigest⟩
        · cases List.mem_singleton.mp hr
          cases List.mem_singleton.mp hr'
          rfl
        · refine hforeign.imp_right fun ⟨q, hq⟩ ↦ ⟨q, hdigest q hq, ?_⟩
          rw [hq]
          exact List.mem_singleton.mpr rfl

/-- A second write is refused where nothing but the submissions stands in its way. -/
theorem write_conflict {svc : IntakeServices} {entry : TaskEntry} {u : Upload} {call : Call}
    {db : Database} {s : Submission} {e : SubmissionRefusal} (hs : s ∈ db.submissions.rows)
    (hcarries : Carries call.request.scope s)
    (herror : write svc entry u call db = .error e)
    (h : ∃ submissions out, write svc entry u call { db with submissions } = .ok out) :
    e.Conflict := by
  obtain ⟨submissions, out, hok⟩ := h
  cases call with
  | extrinsic r signature => exact writeExtrinsic_taken hok hs hcarries herror
  | web r signature expiresAt =>
    obtain ⟨e', herror', hconflict⟩ := writeWeb_taken hok hs hcarries
    have herror'' : writeWeb svc r signature expiresAt entry u db = .error e := herror
    cases herror'.symm.trans herror''
    exact hconflict

theorem lawful_write {c : Config} {w : World} (h : Keyed c.services w) (call : Call)
    (entry : TaskEntry) (u : Upload) (hdistinct : (Action.write call entry u).Distinct c.services) :
    LawfulWrite c w call entry u (respond c w (.write call entry u)) := by
  rcases respond_write c w call entry u with ⟨hwaiting, hr⟩ | ⟨e, herror, hr⟩ |
    ⟨view, db, hwrite, ⟨hreplayed, hr⟩ | ⟨hreplayed, hr⟩⟩ <;> rw [hr]
  · exact
      { refused := fun _ he ↦ nomatch he
        own := fun _ hs ↦ nomatch hs
        created := fun _ hs ↦ nomatch hs
        conflict := fun hmem ↦ absurd hmem hwaiting }
  · refine
      { refused := fun _ _ ↦ rfl
        own := fun _ hs ↦ nomatch hs
        created := fun _ hs ↦ nomatch hs
        conflict := fun _ r id hr hscope ↦ Or.inr ⟨e, rfl, ?_⟩ }
    obtain ⟨s, hs, hcarries⟩ := h.carried hr hscope
    exact write_conflict hs hcarries herror
  · rcases write_spec hwrite with ⟨-, hdb, q, signature, rfl, hmem, hdigest⟩ | ⟨hfalse, -⟩
    · refine
        { refused := fun _ he ↦ nomatch he
          own := fun s hs ↦ ?_
          created := fun _ hs ↦ nomatch hs
          conflict := fun _ _ _ _ _ ↦ Or.inl ⟨_, rfl⟩ }
      cases hs
      exact ⟨hdb, h.accepted_of_digest hdistinct hmem hdigest⟩
    · rw [hfalse] at hreplayed
      cases hreplayed
  · rcases write_spec hwrite with ⟨htrue, -⟩ | ⟨-, hrecorded, howns, -⟩
    · rw [htrue] at hreplayed
      cases hreplayed
    · have hfree : ∀ r id, (r, id) ∈ w.accepted → r.scope ≠ call.request.scope := by
        intro r id hr hscope
        obtain ⟨s, hs, hcarries⟩ := h.carried hr hscope
        exact hrecorded.not_carries howns.carries hs hcarries
      refine
        { refused := fun _ he ↦ nomatch he
          own := fun _ hs ↦ nomatch hs
          created := fun s hs ↦ ?_
          conflict := fun _ r id hr hscope ↦ absurd hscope (hfree r id hr) }
      cases hs
      exact ⟨hrecorded.rows, howns, hfree⟩

/-! ## Arrivals -/

/-- How an arrival is answered follows its lookup, and nothing is written. -/
theorem respond_arrive (c : Config) (w : World) (call : Call) (door : Door) :
    (respond c w (.arrive call door)).2.db = w.db ∧
      (∀ s, (respond c w (.arrive call door)).1 = .original s ↔
        lookup c.services w.db door call = .ok (.original s)) ∧
      ∀ e, (respond c w (.arrive call door)).1 = .refused e ↔
        lookup c.services w.db door call = .error e := by
  cases hlookup : lookup c.services w.db door call with
  | error e => simp [respond, hlookup]
  | ok found => cases found <;> simp [respond, hlookup]

section Lookup

variable {svc : IntakeServices} {db : Database} {door : Door} {s : Submission}

/-- What the checks before the lookup refuse is refused for something else than a
conflict. -/
theorem lookup_of_not_admits {call : Call} (h : ¬ Admits svc db door call) :
    ∃ e, lookup svc db door call = .error e ∧ ¬ e.Conflict := by
  cases call with
  | extrinsic r signature =>
    simp only [lookup, lookupExtrinsic]
    by_cases hpaused : door.paused = false
    · cases hentry : door.entry with
      | none =>
        exact ⟨.taskNotAllowed, by simp [require, need, hpaused, bind, Except.bind], fun h ↦ h⟩
      | some entry => exact absurd ⟨hpaused, by rw [hentry]; rfl⟩ h
    · exact ⟨.submissionsPaused, by simp [require, hpaused, bind, Except.bind], fun h ↦ h⟩
  | web r signature expiresAt =>
    simp only [lookup, lookupWeb]
    by_cases hpaused : door.paused = false
    · cases hauthorised : authoriseWeb svc db r expiresAt door.now with
      | ok _ => exact absurd ⟨hpaused, hauthorised⟩ h
      | error e =>
        refine ⟨e, by simp [require, hpaused, bind, Except.bind], ?_⟩
        unfold authoriseWeb requireExpiry at hauthorised
        split at hauthorised
        · simp only [bind_eq_error, require_eq_error] at hauthorised
          rcases hauthorised with (⟨-, rfl⟩ | ⟨_, -, -, rfl⟩) | ⟨_, -, -, rfl⟩ <;> exact fun h ↦ h
        · cases hauthorised
    · exact ⟨.submissionsPaused, by simp [require, hpaused, bind, Except.bind], fun h ↦ h⟩

/-- A transfer's request that is let in and finds its key used is answered by the digest. -/
theorem lookupExtrinsic_of_find {r : ExtrinsicRequest}
    (h : door.paused = false ∧ door.entry.isSome)
    (hfind : findByIdempotencyKey db r.signerColdkey r.idempotencyKey = some s) :
    (s.requestDigest = svc.digest (.extrinsic r) →
        lookupExtrinsic svc db r door = .ok (.original s)) ∧
      (s.requestDigest ≠ svc.digest (.extrinsic r) →
        ∃ e, lookupExtrinsic svc db r door = .error e ∧ e.Conflict) := by
  obtain ⟨entry, hentry⟩ := Option.isSome_iff_exists.mp h.2
  simp only [lookupExtrinsic, hfind, hentry, h.1, need, require, bind, Except.bind,
    Bool.false_eq_true, not_false_eq_true, if_true]
  refine ⟨fun hdigest ↦ by rw [if_pos hdigest]; rfl, fun hdigest ↦ ?_⟩
  rw [if_neg hdigest]
  exact ⟨_, rfl, Or.inr (Or.inr ⟨_, _, rfl⟩)⟩

/-- It is never answered with a submission that has another digest. -/
theorem lookupExtrinsic_original {r : ExtrinsicRequest}
    (h : lookupExtrinsic svc db r door = .ok (.original s)) :
    s ∈ db.submissions.rows ∧ s.requestDigest = svc.digest (.extrinsic r) := by
  simp only [lookupExtrinsic, bind_eq_ok] at h
  obtain ⟨_, -, entry, -, h⟩ := h
  split at h
  · rename_i existing hfind
    simp only [bind_eq_ok, require_eq_ok] at h
    obtain ⟨_, hdigest, h⟩ := h
    cases h
    exact ⟨(findByIdempotencyKey_eq_some hfind).1, hdigest⟩
  · cases h

/-- A browser's request is answered with a submission exactly where it is let in and finds
one. -/
theorem lookupWeb_original {r : WebRequest} {expiresAt : Instant} :
    lookupWeb svc db r expiresAt door = .ok (.original s) ↔
      (door.paused = false ∧ authoriseWeb svc db r expiresAt door.now = .ok ()) ∧
        findSessionSubmissionByIdempotencyKey db r.accountId r.idempotencyKey = some s := by
  simp only [lookupWeb, bind_eq_ok, require_eq_ok]
  constructor
  · rintro ⟨_, hpaused, _, hauthorised, h⟩
    split at h
    · rename_i existing hfind
      cases h
      exact ⟨⟨by simpa using hpaused, hauthorised⟩, hfind⟩
    · simp only [bind_eq_ok] at h
      obtain ⟨_, -, h⟩ := h
      cases h
  · rintro ⟨⟨hpaused, hauthorised⟩, hfind⟩
    refine ⟨(), by simp [hpaused], (), hauthorised, ?_⟩
    rw [hfind]
    rfl

end Lookup

section Arrivals

variable {c : Config} {w : World} {door : Door}

/-- A transfer's request is answered lawfully wherever it is let in. -/
theorem lawful_extrinsic (h : Keyed c.services w) {r : ExtrinsicRequest} {signature : Bytes}
    (hdistinct : Distinct c.services r)
    (hadmits : ∀ p ∈ w.accepted, p.1.scope = (Request.extrinsic r).scope →
      Admits c.services w.db door (.extrinsic r signature)) :
    LawfulArrival w (.extrinsic r) (respond c w (.arrive (.extrinsic r signature) door)) := by
  obtain ⟨hdb, horiginal, hrefused⟩ := respond_arrive c w (.extrinsic r signature) door
  refine ⟨hdb, fun s hs ↦ ?_, fun id hr ↦ ?_, fun r' id hr' hscope hne ↦ ?_⟩
  · obtain ⟨hmem, hdigest⟩ := lookupExtrinsic_original ((horiginal s).mp hs)
    exact ⟨hmem, h.accepted_of_digest hdistinct hmem hdigest⟩
  · obtain ⟨s, hs, hid, howns, hdigest⟩ := h.accepted _ id hr
    have hfind := h.signers.find?_eq_some.mpr ⟨hs, howns.1⟩
    have hlookup := (lookupExtrinsic_of_find (hadmits _ hr rfl) hfind).1 (hdigest r rfl)
    exact ⟨s, (horiginal s).mpr hlookup, hid, howns⟩
  · cases r' with
    | web r' => cases hscope
    | extrinsic r' =>
      obtain ⟨s, hs, -, howns, hdigest⟩ := h.accepted _ id hr'
      obtain ⟨hcoldkey, hkey⟩ := Prod.mk.inj hscope
      have hidx : s.signerIdx = some (r.signerColdkey, r.idempotencyKey) := by
        rw [← Caller.coldkey.inj hcoldkey, ← hkey]
        exact howns.1
      have hother : s.requestDigest ≠ c.services.digest (.extrinsic r) := by
        rw [hdigest r' rfl]
        intro hsame
        cases hdistinct _ hsame
        exact hne rfl
      obtain ⟨e, hlookup, hconflict⟩ := (lookupExtrinsic_of_find (hadmits _ hr' hscope)
        (h.signers.find?_eq_some.mpr ⟨hs, hidx⟩)).2 hother
      exact ⟨e, (hrefused e).mpr hlookup, hconflict⟩

/-- A browser's request is answered lawfully where its key was used for nothing else. -/
theorem lawful_web (h : Keyed c.services w) {r : WebRequest} {signature : Bytes}
    {expiresAt : Instant}
    (hadmits : ∀ p ∈ w.accepted, p.1.scope = (Request.web r).scope →
      Admits c.services w.db door (.web r signature expiresAt))
    (hown : Admits c.services w.db door (.web r signature expiresAt) →
      KeyIsOwn w (.web r signature expiresAt)) :
    LawfulArrival w (.web r) (respond c w (.arrive (.web r signature expiresAt) door)) := by
  obtain ⟨hdb, horiginal, -⟩ := respond_arrive c w (.web r signature expiresAt) door
  refine ⟨hdb, fun s hs ↦ ?_, fun id hr ↦ ?_, fun r' id hr' hscope hne ↦ ?_⟩
  · obtain ⟨hin, hfind⟩ := lookupWeb_original.mp ((horiginal s).mp hs)
    obtain ⟨hmem, hidx⟩ := h.sessions.find?_eq_some.mp hfind
    exact ⟨hmem, hown hin s hmem hidx⟩
  · obtain ⟨s, hs, hid, howns, -⟩ := h.accepted _ id hr
    have hfind := h.sessions.find?_eq_some.mpr ⟨hs, howns.1⟩
    exact ⟨s, (horiginal s).mpr (lookupWeb_original.mpr ⟨hadmits _ hr rfl, hfind⟩), hid, howns⟩
  · cases r' with
    | extrinsic r' => cases hscope
    | web r' =>
      obtain ⟨s, hs, hid, howns, -⟩ := h.accepted _ id hr'
      obtain ⟨haccount, hkey⟩ := Prod.mk.inj hscope
      have hidx : s.sessionIdx = some (r.accountId, r.idempotencyKey) := by
        rw [← Caller.account.inj haccount, ← hkey]
        exact howns.1
      have hr := hown (hadmits _ hr' hscope) s hs hidx
      rw [hid] at hr
      exact absurd (h.once _ _ id hr' hr) hne

/-- An arrival is answered lawfully exactly where it is proper. -/
theorem lawful_arrival_iff (h : Keyed c.services w) (call : Call)
    (hdistinct : (Action.arrive call door).Distinct c.services) :
    LawfulArrival w call.request (respond c w (.arrive call door)) ↔
      Proper c w (.arrive call door) := by
  constructor
  · intro hlawful
    obtain ⟨-, horiginal, hrefused⟩ := respond_arrive c w call door
    refine ⟨fun ⟨r, id⟩ hr hscope ↦ ?_, fun hadmits ↦ ?_⟩
    · by_contra hnot
      obtain ⟨e, herror, hconflict⟩ := lookup_of_not_admits hnot
      have hanswer := (hrefused e).mpr herror
      by_cases hsame : r = call.request
      · subst hsame
        obtain ⟨s, hs, -⟩ := hlawful.replay id hr
        cases hs.symm.trans hanswer
      · obtain ⟨e', he', hconflict'⟩ := hlawful.conflict r id hr hscope hsame
        cases he'.symm.trans hanswer
        exact hconflict hconflict'
    · cases call with
      | extrinsic r signature => trivial
      | web r signature expiresAt =>
        intro s hs hidx
        have hfind := h.sessions.find?_eq_some.mpr ⟨hs, hidx⟩
        exact (hlawful.own s ((horiginal s).mpr (lookupWeb_original.mpr ⟨hadmits, hfind⟩))).2
  · rintro ⟨hadmits, hown⟩
    cases call with
    | extrinsic r signature => exact lawful_extrinsic h hdistinct hadmits
    | web r signature expiresAt => exact lawful_web h hadmits hown

/-- So is every action. -/
theorem lawful_iff (h : Keyed c.services w) (a : Action) (hdistinct : a.Distinct c.services) :
    Lawful c w a ↔ Proper c w a := by
  cases a with
  | arrive call door => exact lawful_arrival_iff h call hdistinct
  | write call entry u => exact iff_of_true (lawful_write h call entry u hdistinct) trivial
  | abandon call entry => exact Iff.rfl
  | elsewhere a => exact Iff.rfl

end Arrivals

/-! ## Runs -/

/-- No two submissions are stored under one key of one caller. -/
def OneEach (w : World) : Prop :=
  ∀ scope, ∀ s ∈ w.db.submissions.rows, ∀ s' ∈ w.db.submissions.rows,
    Carries scope s → Carries scope s' → s = s'

theorem Keyed.oneEach {svc : IntakeServices} {w : World} (h : Keyed svc w) : OneEach w := by
  rintro ⟨caller, key⟩ s hs s' hs' hcarries hcarries'
  cases caller with
  | coldkey address => exact h.signers s hs s' hs' _ hcarries hcarries'
  | account id => exact h.sessions s hs s' hs' _ hcarries hcarries'

/-- Along any run, every request is answered lawfully exactly if every arrival is proper; and
no key ever carries two submissions. -/
theorem keys_mean_one_request (c : Config) (as : List Action)
    (hdistinct : ∀ a ∈ as, a.Distinct c.services) :
    (Each (step c) (Lawful c) World.start as ↔ Each (step c) (Proper c) World.start as) ∧
      OneEach (run (step c) World.start as) := by
  refine ⟨⟨fun has ↦ ?_, fun has ↦ ?_⟩, (run_invariant keyed_step (keyed_start _) as).oneEach⟩
  · exact (has.and_forall hdistinct).imp (fun w a _ ↦ keyed_step w a)
      (fun w a ha h ↦ (lawful_iff h a ha.2).mp ha.1) (keyed_start c.services)
  · exact (has.and_forall hdistinct).imp (fun w a _ ↦ keyed_step w a)
      (fun w a ha h ↦ (lawful_iff h a ha.2).mpr ha.1) (keyed_start c.services)

/-! Requests for runs on fixed inputs. -/

/-- A transfer's request by one coldkey under one key. -/
def exampleExtrinsic (taskId : String) : ExtrinsicRequest where
  signerColdkey := "miner"
  idempotencyKey := 7
  taskId := taskId
  taskBundleSha256 := "bundle"
  proofSha256 := "p2"
  paymentReference := "1-1"
  publicCredit := none

/-- A request of account 1's session under one key. -/
def exampleSession (taskId : String) : WebRequest where
  accountId := 1
  coldkey := none
  idempotencyKey := 7
  taskId := taskId
  taskBundleSha256 := "bundle"
  bundleSha256 := "archive"
  publicCredit := none

/-- Two requests and everything else have three digests. -/
def exampleDigest (d : Canonical) : Digest :=
  if d = .extrinsic (exampleExtrinsic "task") then "first"
  else if d = .extrinsic (exampleExtrinsic "other") then "second"
  else "neither"

def exampleConfig : Config where
  watcher := DepositWatcher.exampleDeployment.watcher
  services :=
    { verifier := DepositWatcher.exampleDeployment.verifier
      digest := exampleDigest
      verifyDigest := fun _ _ _ ↦ true
      verifyMessage := fun _ _ _ ↦ true
      resolveTask := fun _ _ ↦ some ⟨"problem", "target", .formalized⟩
      intentMinutes := 30
      manualReviewEnabled := false
      reviewPolicyVersion := "v1" }

def exampleDoor : Door := ⟨false, some ⟨"problem", "target", .formalized⟩, 1⟩

def exampleUpload (id : Uuid) (proofSha256 : Digest) : Upload where
  admitted := .ok ()
  bundleSha256 := "archive"
  proofContent := [1]
  proofSha256 := proofSha256
  freshNonce := true
  quote := ⟨true, none, some 100, "policy", none⟩
  logsDeposited := false
  transfer := .ok ⟨1, 0, 1, 1, "miner", "treasury", 5⟩
  dispatched := true
  intentId := id
  submissionId := id
  now := 2

/-- Account 1 buys two credits. -/
def exampleFunding : List Action :=
  [ .elsewhere ⟨.payment (.accounts ⟨[⟨1, none⟩], by decide⟩ (.empty _)), by simp⟩,
    .elsewhere ⟨.fund ⟨{ accountId := 1, kind := .bonus, amountRao := 10 }, by decide, by decide⟩, by simp⟩ ]

/-- A session's request is accepted. -/
def exampleAccepted : List Action :=
  exampleFunding ++
    [ .arrive (.web (exampleSession "task") [] 0) exampleDoor,
      .write (.web (exampleSession "task") [] 0) ⟨"problem", "target", .formalized⟩
        (exampleUpload 3 "p1") ]

/-- A session that asks for something else under a key it used is answered with what it got
for the key. -/
theorem session_key_answers_other_request :
    ¬ ∀ as, (∀ a ∈ as, a.Distinct exampleConfig.services) →
      Each (step exampleConfig) (Lawful exampleConfig) World.start as := by
  intro h
  have hlawful := h (exampleAccepted ++ [.arrive (.web (exampleSession "other") [] 0) exampleDoor])
    (by simp [exampleAccepted, exampleFunding, Action.Distinct])
  have harrival : LawfulArrival _ _ _ := (each_append.mp hlawful).2.1
  have hanswer : ∃ s ∈ (run (step exampleConfig) World.start exampleAccepted).db.submissions.rows,
      (respond exampleConfig (run (step exampleConfig) World.start exampleAccepted)
        (.arrive (.web (exampleSession "other") [] 0) exampleDoor)).1 = .original s ∧
      (.web (exampleSession "other"), s.id) ∉
        (run (step exampleConfig) World.start exampleAccepted).accepted := by
    decide +kernel
  obtain ⟨s, -, hs, hother⟩ := hanswer
  exact hother (harrival.own s hs).2

/-- A request of each kind, each sent again, and another under the transfer's key. -/
def exampleRequests : List Action :=
  exampleAccepted ++
    [ .arrive (.web (exampleSession "task") [] 0) exampleDoor,
      .arrive (.extrinsic (exampleExtrinsic "task") [1]) exampleDoor,
      .arrive (.extrinsic (exampleExtrinsic "other") [1]) exampleDoor,
      .write (.extrinsic (exampleExtrinsic "task") [1])
        ⟨"problem", "target", .formalized⟩ (exampleUpload 4 "p2"),
      .write (.extrinsic (exampleExtrinsic "other") [1])
        ⟨"problem", "target", .formalized⟩ (exampleUpload 5 "p2"),
      .arrive (.extrinsic (exampleExtrinsic "task") [1]) exampleDoor,
      .arrive (.extrinsic (exampleExtrinsic "other") [1]) exampleDoor ]

theorem exampleRequests_distinct : ∀ a ∈ exampleRequests, a.Distinct exampleConfig.services := by
  have hfirst : Distinct exampleConfig.services (exampleExtrinsic "task") := by
    intro d hd
    by_contra hne
    simp only [exampleConfig, exampleDigest, if_neg hne] at hd
    split at hd <;> revert hd <;> decide
  have hsecond : Distinct exampleConfig.services (exampleExtrinsic "other") := by
    intro d hd
    by_contra hne
    simp only [exampleConfig, exampleDigest, if_neg hne] at hd
    split at hd <;> revert hd <;> decide
  simp [exampleRequests, exampleAccepted, exampleFunding, Action.Distinct, hfirst, hsecond]

theorem keys_mean_one_request_example :
    Each (step exampleConfig) (Lawful exampleConfig) World.start exampleRequests ∧
      (run (step exampleConfig) World.start exampleRequests).accepted.length = 2 :=
  ⟨(keys_mean_one_request exampleConfig exampleRequests exampleRequests_distinct).1.mpr
    (by decide +kernel), by decide +kernel⟩

end Conjectures.Intake
