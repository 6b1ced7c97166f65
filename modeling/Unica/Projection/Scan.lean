import Unica.Projection.Startup

/-!
# What startup accepts

The pass over the stores changes nothing. It succeeds exactly where every link confirms
its record, every record has a link, and only a committed retirement misses its record;
its plans are those of the active links.
-/

namespace Unica.Projection

open Lib Receipt Unica.Task Link Prog Discipline V5TaskProjectionFailure StartupScan List Option Stores V5TaskRecoveryEntry Table Finmap

section Discipline

variable [ReceiptCodec]

def discipline (V : Verdict → Prop) : Discipline Stores V5TaskProjectionFailure where
  same s s' := (Task.discipline V).same s.tasks s'.tasks ∧ (Link.discipline V).same s.links s'.links
  before _ := True
  after _ := True
  same_refl _ := ⟨(Task.discipline V).same_refl _, (Link.discipline V).same_refl _⟩
  same_trans _ _ _ hst htu :=
    ⟨(Task.discipline V).same_trans _ _ _ hst.1 htu.1, (Link.discipline V).same_trans _ _ _ hst.2 htu.2⟩

variable {V : Verdict → Prop} {s : Stores} {α : Type} {Q : α → Prop} {C : Prop}

theorem looks_onTasks {m : TaskM α} {keyDigest : ReceiptKeyDigest}
    (h : (Task.discipline V).Looks V m s.tasks Q C) : (discipline V).Looks V (onTasks keyDigest m) s Q C := by
  refine .within h ?_ ?_ ?_
  · rintro a _ ⟨-, rfl, hq⟩
    exact ⟨(discipline V).same_refl s, rfl, hq⟩
  · rintro e t ⟨hsame, -, hc⟩
    exact ⟨⟨hsame, (Link.discipline V).same_refl _⟩, trivial, hc⟩
  · rintro t ⟨hsame, hv⟩
    exact ⟨⟨hsame, (Link.discipline V).same_refl _⟩, hv⟩

theorem looks_onLinks {m : LinkM α} (h : (Link.discipline V).Looks V m s.links Q C) :
    (discipline V).Looks V (onLinks m) s Q C := by
  refine .within h ?_ ?_ ?_
  · rintro a _ ⟨-, rfl, hq⟩
    exact ⟨(discipline V).same_refl s, rfl, hq⟩
  · rintro e t ⟨hsame, -, hc⟩
    exact ⟨⟨(Task.discipline V).same_refl _, hsame⟩, trivial, hc⟩
  · rintro t ⟨hsame, hv⟩
    exact ⟨⟨(Task.discipline V).same_refl _, hsame⟩, hv⟩

/-- A computation on values. -/
theorem looks_lift {x : Except V5TaskProjectionFailure α} (hc : (∀ a, x ≠ .ok a) → C) :
    (discipline V).Looks V (lift x) s (fun a => x = .ok a) C :=
  .lift fun e he => ⟨trivial, hc fun a ha => by rw [he] at ha; cases ha⟩

theorem looks_refuseIf {p : Prop} [Decidable p] {e : V5TaskProjectionFailure} (hc : p → C) :
    (discipline V).Looks V (lift (refuseIf p e)) s (fun _ => ¬ p) C :=
  (looks_lift fun h => hc (by_contra fun hp => h () (refuseIf_eq_ok.mpr hp))).mono
    (fun _ h => refuseIf_eq_ok.mp h) id

end Discipline

/-! ## Links and records -/

section Accepted

variable [TaskCodec]

namespace Stores

/-- The record of a link's Task. -/
def record (s : Stores) (link : TaskLifecycleLinkRecord) : Option V5StoredInvocationRecord :=
  s.tasks.records.lookup link.header.key.reservedTaskId

/-- The pair a link and its record are, as startup accepts it. -/
def Accepts (s : Stores) (link : TaskLifecycleLinkRecord) : Prop :=
  match s.record link with
  | some record => ∃ plans, confirmLink link record = .ok plans
  | none => permitsAbsence link = true

/-- Every record can be read. -/
def Readable (s : Stores) : Prop :=
  ∀ taskId record, s.tasks.records.lookup taskId = some record → s.tasks.Holds taskId record

/-- Every record has the link of its Task. -/
def Linked (s : Stores) : Prop :=
  ∀ taskId record, s.tasks.records.lookup taskId = some record →
    ∃ d link, s.link d = some (.link link) ∧ link.header.key.reservedTaskId = taskId

structure Scannable (s : Stores) : Prop where
  accepts : ∀ d link, s.link d = some (.link link) → s.Accepts link
  linked : s.Linked

def plans (s : Stores) : LinkEntry → List StartupTaskTerminalizationPlan
  | .reservation _ => []
  | .link link =>
      match s.record link with
      | some record => (confirmLink link record).toOption.getD []
      | none => []

def snapshot (s : Stores) : List LinkEntry :=
  s.links.memory.entries.sortedKeys.filterMap s.links.memory.entries.lookup

/-- What is to be done, in the order of the snapshot. -/
def startupPlans (s : Stores) : List StartupTaskTerminalizationPlan := s.snapshot.flatMap s.plans

end Stores

section Pairs

variable {s : Stores} {link : TaskLifecycleLinkRecord} {r : V5StoredInvocationRecord}

theorem Stores.accepts_of_record (h : s.record link = some r) :
    s.Accepts link ↔ ∃ plans, confirmLink link r = .ok plans := by
  unfold Accepts
  rw [h]

theorem Stores.accepts_of_absent (h : s.record link = none) :
    s.Accepts link ↔ permitsAbsence link = true := by
  unfold Accepts
  rw [h]

theorem Stores.plans_of_record {plans : List StartupTaskTerminalizationPlan} (h : s.record link = some r)
    (hplans : confirmLink link r = .ok plans) : s.plans (.link link) = plans := by
  simp only [Stores.plans, h, hplans]
  rfl

theorem Stores.plans_of_absent (h : s.record link = none) : s.plans (.link link) = [] := by
  simp only [plans, h]

end Pairs

theorem Stores.mem_snapshot {s : Stores} {entry : LinkEntry} :
    entry ∈ s.snapshot ↔ ∃ d, s.link d = some entry := by
  unfold snapshot link
  rw [mem_filterMap]
  constructor
  · rintro ⟨d, -, hd⟩
    exact ⟨d, hd⟩
  · rintro ⟨d, hd⟩
    exact ⟨d, mem_sortedKeys.mpr ⟨entry, hd⟩, hd⟩

variable {V : Verdict → Prop} {s : Stores} {recovery : List V5TaskRecoveryEntry}
  {link : TaskLifecycleLinkRecord}

theorem looks_catalogSnapshot {C : Prop} :
    (discipline V).Looks V (onLinks catalogSnapshot) s (fun entries => entries = s.snapshot) C := by
  refine looks_onLinks ?_
  have h := reports_discipline (V := V)
  refine (looks_checkDeadline h).bind fun _ _ => (looks_checkDeadline h).bind fun _ _ => ?_
  refine (looks_verifyRootAuthority h).bind fun _ _ => (looks_checkDeadline h).bind fun _ _ => ?_
  exact .get_bind (Looks.pure rfl)

/-- The opening's list names every record once. -/
def Noted (s : Stores) (recovery : List V5TaskRecoveryEntry) : Prop :=
  List.Forall₂ (NotedBy s.tasks) s.tasks.records.sortedKeys recovery

theorem looks_rereadRecovered {C : Prop} {ids : List TaskId}
    (hnoted : List.Forall₂ (NotedBy s.tasks) ids recovery) :
    ∀ found, ids.Nodup → (∀ id ∈ ids, found.lookup id = none) →
      (discipline V).Looks V (rereadRecovered recovery found) s (fun result => ∀ taskId, result.lookup taskId
        = if taskId ∈ ids then s.tasks.records.lookup taskId else found.lookup taskId) C := by
  induction hnoted with
  | nil =>
    intro found _ _
    exact .pure fun taskId => by simp
  | @cons id entry ids recovery hentry _ ih =>
    intro found hnodup hfresh
    obtain ⟨hid, hnodup⟩ := nodup_cons.mp hnodup
    obtain ⟨r, hr, rfl⟩ := hentry
    have hidentity : (fromRecord r).identity = r.identity := rfl
    have hkey : (fromRecord r).identity.taskId = id := hr.id_eq
    unfold rereadRecovered
    rw [hkey]
    refine (looks_onTasks (looks_readRecord fun h => absurd hr (h r))).bind fun r' hr' => ?_
    obtain rfl := hr.unique hr'
    refine (looks_refuseIf fun h => absurd (V5TaskIdentity.matchesRecord_iff.mpr hidentity) h).bind
      fun _ _ => ?_
    refine (looks_refuseIf fun h => ?_).bind fun _ _ => ?_
    · rw [hfresh id mem_cons_self] at h
      cases h
    have hrest : ∀ id' ∈ ids, (found.insert id r').lookup id' = none := by
      intro id' hmem
      have hne : id' ≠ id := fun heq => hid (heq ▸ hmem)
      rw [lookup_insert_of_ne _ hne]
      exact hfresh id' (mem_cons_of_mem _ hmem)
    refine (ih _ hnodup hrest).mono (fun result hresult taskId => ?_) fun h => h
    rw [hresult taskId]
    by_cases hmem : taskId ∈ ids
    · simp [hmem]
    · by_cases heq : taskId = id
      · subst heq
        simp [hmem, hr.lookup_eq]
      · simp [hmem, heq]

/-- A read whose answer the caller looks at. -/
theorem looks_reify_readRecord {C : Prop} {taskId : TaskId} (hs : s.Readable) :
    (Task.discipline V).Looks V (readRecord taskId).reify s.tasks (fun result => match result with
      | .ok r => s.tasks.records.lookup taskId = some r
      | .error e => (∀ missing, e = .notFound missing → s.tasks.records.lookup taskId = none)
        ∧ ((∃ missing, e = .notFound missing) ∨ V .fail)) C := by
  have hread : Ends V (readRecord taskId) s.tasks
      (fun r t => t = s.tasks ∧ s.tasks.records.lookup taskId = some r)
      (fun e t => t = s.tasks ∧ (∀ missing, e = .notFound missing → s.tasks.records.lookup taskId = none)
        ∧ ((∃ missing, e = .notFound missing) ∨ V .fail))
      fun t => (Task.discipline V).same s.tasks t ∧ V .crash := by
    refine .mono (.and get_looks readRecord_notFound) ?_ ?_ ?_
    · rintro r t ⟨⟨-, rfl, hr⟩, -⟩
      exact ⟨rfl, hr.lookup_eq⟩
    · rintro e t ⟨⟨-, -, hv⟩, rfl, habsent⟩
      refine ⟨rfl, habsent.1, ?_⟩
      rcases hv with hv | hnone
      · exact .inr hv
      · cases hlookup : s.tasks.records.lookup taskId with
        | some r => exact absurd (hs taskId r hlookup) (hnone r)
        | none => exact (habsent.2 hlookup).imp_left fun h => ⟨_, h⟩
    · rintro t ⟨h, -⟩
      exact h
  refine Ends.mono (.reify hread) ?_ (fun _ _ h => h) fun _ h => h
  rintro result t h
  cases result with
  | ok | error =>
    obtain ⟨rfl, hr⟩ := h
    exact ⟨(Task.discipline V).same_refl _, rfl, hr⟩

theorem looks_linkedRecord {recovered : Table TaskId V5StoredInvocationRecord}
    (hs : s.Readable) (hsub : ∀ taskId r, recovered.lookup taskId = some r →
      s.tasks.records.lookup taskId = some r) :
    (discipline V).Looks V (linkedRecord link recovered) s
      (fun found => found = s.record link ∧ (found = none → permitsAbsence link = true))
      (¬ (s.record link = none → permitsAbsence link = true)) := by
  unfold linkedRecord
  dsimp only
  cases hfound : recovered.lookup link.header.key.reservedTaskId with
  | some r => exact .pure ⟨(hsub _ _ hfound).symm, nofun⟩
  | none =>
    refine (looks_onTasks (looks_reify_readRecord hs)).bind fun result hresult => ?_
    cases result with
    | ok r => exact .pure ⟨hresult.symm, nofun⟩
    | error e =>
      obtain ⟨habsent, hwhy⟩ := hresult
      by_cases hmissing : ∃ missing, e = .notFound missing
      · obtain ⟨missing, rfl⟩ := hmissing
        have hnone : s.record link = none := habsent missing rfl
        dsimp only
        split
        case isTrue hpermits => exact .pure ⟨hnone.symm, fun _ => hpermits⟩
        case isFalse hpermits => exact .throw trivial fun h => hpermits (h hnone)
      · have hv : V .fail := hwhy.resolve_left hmissing
        have hthrow : ∀ failure, (discipline V).Looks V (throw failure) s
            (fun found => found = s.record link ∧ (found = none → permitsAbsence link = true))
            (¬ (s.record link = none → permitsAbsence link = true)) := fun _ =>
          Ends.throw ⟨(discipline V).same_refl s, trivial, .inl hv⟩
        cases e with
        | notFound missing => exact absurd ⟨missing, rfl⟩ hmissing
        | commitUncertain _ _ | mismatch _ _ | deadlineExceeded | recordTooLarge _ | corrupt _ | storage _ =>
          exact hthrow _

theorem looks_inspectLink {scan : StartupScan} (hs : s.Readable)
    (hsub : ∀ taskId r, scan.recovered.lookup taskId = some r → s.tasks.records.lookup taskId = some r)
    (hfresh : link.header.key.reservedTaskId ∉ scan.linked) :
    (discipline V).Looks V (inspectLink link scan) s (fun result => s.Accepts link
        ∧ result = scan.see link.header.key.reservedTaskId (s.plans (.link link))) (¬ s.Accepts link) := by
  refine (looks_refuseIf fun h => absurd h hfresh).bind fun _ _ => ?_
  refine ((looks_linkedRecord hs hsub).mono (fun _ h => h) fun h hp => h fun hnone => ?_).bind
    fun found hfound => ?_
  · exact (accepts_of_absent hnone).mp hp
  obtain ⟨rfl, habsent⟩ := hfound
  cases hrecord : s.record link with
  | none =>
    rw [plans_of_absent hrecord]
    exact .pure ⟨(accepts_of_absent hrecord).mpr (habsent hrecord), rfl⟩
  | some r =>
    refine (looks_lift fun h hp => ?_).bind fun plans hplans => ?_
    · obtain ⟨plans, hplans⟩ := (accepts_of_record hrecord).mp hp
      exact h plans hplans
    · rw [plans_of_record hrecord hplans]
      exact .pure ⟨(accepts_of_record hrecord).mpr ⟨plans, hplans⟩, rfl⟩

/-- The Task whose link the entry is. -/
def linkedTask? : LinkEntry → Option TaskId
  | .reservation _ => none
  | .link link => some link.header.key.reservedTaskId

/-- What the pass has found after the given links. -/
structure Inspected (s : Stores) (entries : List LinkEntry) (scan result : StartupScan) : Prop where
  accepts : ∀ link, .link link ∈ entries → s.Accepts link
  plans_eq : result.plans = scan.plans ++ entries.flatMap s.plans
  recovered_eq : ∀ taskId, result.recovered.lookup taskId
    = if taskId ∈ entries.filterMap linkedTask? then none else scan.recovered.lookup taskId

theorem looks_inspectLinks (hs : s.Readable) {entries : List LinkEntry} :
    ∀ scan, (entries.filterMap linkedTask?).Nodup →
      (∀ taskId ∈ entries.filterMap linkedTask?, taskId ∉ scan.linked) →
      (∀ taskId r, scan.recovered.lookup taskId = some r → s.tasks.records.lookup taskId = some r) →
      (discipline V).Looks V (inspectLinks entries scan) s (fun result => Inspected s entries scan result)
        (¬ ∀ link, .link link ∈ entries → s.Accepts link) := by
  induction entries with
  | nil =>
    intro scan _ _ _
    exact .pure ⟨nofun, by simp, fun _ => by simp⟩
  | cons entry rest ih =>
    intro scan hnodup hfresh hsub
    cases entry with
    | reservation held =>
      refine (ih scan hnodup hfresh hsub).mono (fun result h => ?_) fun h hp => h fun link hmem =>
        hp link (mem_cons_of_mem _ hmem)
      refine ⟨fun link hmem => h.accepts link ?_, h.plans_eq, h.recovered_eq⟩
      simpa using hmem
    | link link =>
      have hmap : (LinkEntry.link link :: rest).filterMap linkedTask?
          = link.header.key.reservedTaskId :: rest.filterMap linkedTask? := rfl
      obtain ⟨hhead, hnodup⟩ := nodup_cons.mp hnodup
      refine ((looks_inspectLink hs hsub (hfresh _ mem_cons_self)).mono (fun _ h => h)
        fun h hp => h (hp link mem_cons_self)).bind ?_
      rintro _ ⟨haccepts, rfl⟩
      have hrest := ih (scan.see link.header.key.reservedTaskId (s.plans (.link link))) hnodup ?_ ?_
      · refine hrest.mono (fun result h => ?_) fun h hp => h fun link' hmem =>
          hp link' (mem_cons_of_mem _ hmem)
        refine ⟨?_, ?_, ?_⟩
        · intro link' hmem
          rcases mem_cons.mp hmem with heq | hmem
          · cases heq
            exact haccepts
          · exact h.accepts link' hmem
        · rw [h.plans_eq]
          simp [see]
        · intro taskId
          rw [h.recovered_eq, hmap]
          by_cases heq : taskId = link.header.key.reservedTaskId
          · subst heq
            simp [see]
          · simp [see, heq]
      · intro taskId hmem
        have hne : taskId ≠ link.header.key.reservedTaskId := fun heq => hhead (heq ▸ hmem)
        simp only [see, Finset.mem_insert, not_or]
        exact ⟨hne, hfresh taskId (mem_cons_of_mem _ hmem)⟩
      · intro taskId r hr
        by_cases heq : taskId = link.header.key.reservedTaskId
        · subst heq
          simp [see] at hr
        · exact hsub taskId r (by simpa [see, heq] using hr)

theorem Stores.nodup_linkedTasks (hs : s.links.memory.Sound) : (s.snapshot.filterMap linkedTask?).Nodup := by
  unfold snapshot
  rw [filterMap_filterMap]
  refine List.Nodup.filterMap ?_ (nodup_sortedKeys _)
  intro d d' taskId hd hd'
  obtain ⟨e, he, hlinked⟩ := bind_eq_some_iff.mp hd
  obtain ⟨e', he', hlinked'⟩ := bind_eq_some_iff.mp hd'
  have htask : ∀ entry, linkedTask? entry = some taskId →
      entry.header.key.reservedTaskId = taskId := by
    intro entry h
    cases entry with
    | reservation _ => cases h
    | link link => exact some.inj h
  have h := hs.tasks.lookup_of he
  have h' := hs.tasks.lookup_of he'
  rw [htask e hlinked] at h
  rw [htask e' hlinked'] at h'
  exact some.inj (h.symm.trans h')

theorem Stores.mem_linkedTasks {taskId : TaskId} : taskId ∈ s.snapshot.filterMap linkedTask? ↔
    ∃ d link, s.link d = some (.link link) ∧ link.header.key.reservedTaskId = taskId := by
  rw [mem_filterMap]
  constructor
  · rintro ⟨entry, hmem, hlinked⟩
    obtain ⟨d, hd⟩ := mem_snapshot.mp hmem
    cases entry with
    | reservation _ => cases hlinked
    | link link => exact ⟨d, link, hd, some.inj hlinked⟩
  · rintro ⟨d, link, hd, rfl⟩
    exact ⟨.link link, mem_snapshot.mpr ⟨d, hd⟩, rfl⟩

/-- **What startup accepts.** -/
theorem looks_scanStores (hs : s.Readable) (hsound : s.links.memory.Sound) (hnoted : Noted s recovery) :
    (discipline V).Looks V (scanStores recovery) s
      (fun plans => s.Scannable ∧ plans = s.startupPlans) (¬ s.Scannable) := by
  refine looks_catalogSnapshot.bind ?_
  rintro _ rfl
  refine (looks_rereadRecovered hnoted ∅ (nodup_sortedKeys _) fun _ _ => rfl).bind
    fun recovered hrecovered => ?_
  have hlookup : ∀ taskId, recovered.lookup taskId = s.tasks.records.lookup taskId := by
    intro taskId
    rw [hrecovered taskId]
    split
    · rfl
    · cases h : s.tasks.records.lookup taskId with
      | none => rfl
      | some r => exact absurd (mem_sortedKeys.mpr ⟨r, h⟩) ‹_›
  have hinspect := looks_inspectLinks (V := V) hs ⟨∅, recovered, []⟩ (nodup_linkedTasks hsound)
    (fun _ _ => Finset.notMem_empty _) fun taskId r hr => hlookup taskId ▸ hr
  refine (hinspect.mono (fun _ h => h) fun h hp => h fun link hmem => ?_).bind fun scan hscan => ?_
  · obtain ⟨d, hd⟩ := mem_snapshot.mp hmem
    exact hp.accepts d link hd
  -- a record is left over exactly where its Task has no link
  have hleft : scan.recovered = ∅ ↔ s.Linked := by
    constructor
    · intro hempty taskId r hr
      have h := hscan.recovered_eq taskId
      rw [hempty, hlookup, hr] at h
      by_contra hnone
      rw [if_neg fun hmem => hnone (mem_linkedTasks.mp hmem)] at h
      cases h
    · intro hlinked
      refine ext_lookup fun taskId => ?_
      rw [hscan.recovered_eq, hlookup]
      split
      · rfl
      · cases hr : s.tasks.records.lookup taskId with
        | none => rfl
        | some r => exact absurd (mem_linkedTasks.mpr (hlinked taskId r hr)) ‹_›
  refine (looks_refuseIf fun h hp => h (hleft.mpr hp.linked)).bind fun _ hempty => ?_
  refine .pure ⟨⟨fun d link hd => ?_, hleft.mp (not_ne_iff.mp hempty)⟩, ?_⟩
  · exact hscan.accepts link (mem_snapshot.mpr ⟨d, hd⟩)
  · rw [hscan.plans_eq]
    rfl

end Accepted

end Unica.Projection
