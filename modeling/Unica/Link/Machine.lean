import Unica.Link.Mutations
import Unica.Task.Record

/-!
# Failed commits of the link store

The calls of one store handle, with any faults. A failed mutation may have put its
catalog on disk while the memory keeps the one from before. The next mutation writes what
the memory has: the link of the failed one is lost, unless the handle was reloaded first.
-/

namespace Unica.Link

open Lib Receipt Prog Discipline LinkStore LinkCatalog List

section Machine

variable [ReceiptCodec]

inductive LinkCall where
  | reserve (key : ReceiptKey) (link : TaskLinkIdentity)
  | materialize (reservation : TaskLinkReservation) (task : ReceiptTaskProjection) (taskRecordVersion : Nat)
      (bindEpochMs : EpochMs) (phase : AttemptPhase)
  | markBegun (expected : TaskBoundReceipt) (taskRecordVersion : Nat) (updatedAtEpochMs : EpochMs)
  | refresh (expected : TaskBoundReceipt) (task : ReceiptTaskProjection)
  | publishTerminal (expected : TaskBoundReceipt) (task : ReceiptTaskProjection) (taskRecordVersion : Nat)
      (status : ClosedTerminalStatus) (digest : TerminalDigest) (terminalEpochMs : EpochMs)
  | beginRetirement (expected : TaskTerminalBoundReceipt) (invocationBytes taskBytes : Nat)
  | finalizeRetirement (expected : TaskRetirementPendingReceipt)
  | read (taskId : TaskId)
  | reload
  | reopen

namespace LinkCall

/-- The key whose link the call may change. -/
def key? : LinkCall → Option ReceiptKeyDigest
  | reserve key _ => some (receiptKeyDigest key)
  | materialize reservation _ _ _ _ => some (receiptKeyDigest reservation.header.key)
  | markBegun expected _ _ => some (receiptKeyDigest expected.record.key)
  | refresh expected _ => some (receiptKeyDigest expected.record.key)
  | publishTerminal expected _ _ _ _ _ => some (receiptKeyDigest expected.record.key)
  | beginRetirement expected _ _ => some (receiptKeyDigest expected.record.key)
  | finalizeRetirement expected => some (receiptKeyDigest expected.record.key)
  | read _ | reload | reopen => none

def forgetting {α : Type} (m : LinkM α) : LinkM Unit := do
  let _ ← m
  pure ()

def run : LinkCall → LinkM Unit
  | reserve key link => forgetting (reserveTaskLink key link)
  | materialize reservation task version bindEpochMs phase =>
      forgetting (materializeTaskBound reservation task version bindEpochMs phase)
  | markBegun expected version updatedAtEpochMs =>
      forgetting (markTaskBoundBegun expected version updatedAtEpochMs)
  | refresh expected task => forgetting (refreshTaskBoundProjection expected task)
  | publishTerminal expected task version status digest terminalEpochMs =>
      forgetting (publishTaskTerminalBound expected task version status digest terminalEpochMs)
  | beginRetirement expected invocationBytes taskBytes =>
      forgetting (beginTaskRetirement expected invocationBytes taskBytes)
  | finalizeRetirement expected => forgetting (finalizeTaskRetirement expected)
  | read taskId => forgetting (readByTaskId taskId)
  | reload => reloadDurableCatalog
  | reopen => openLinkStore

end LinkCall

/-! ## One call -/

variable {s s' : LinkStore} {call : LinkCall} {d : ReceiptKeyDigest} {c : LinkCatalog}

/-- What a call does to disk and memory: nothing; it commits a catalog, which is in memory only
where it succeeded; or it adopts the catalog on disk. -/
inductive Effect (call : LinkCall) (s : LinkStore) : Outcome LinkStoreError Unit → LinkStore → Prop where
  | kept {out : Outcome LinkStoreError Unit} {s' : LinkStore} (hsnapshot : s'.snapshot = s.snapshot)
      (hmemory : s'.memory = s.memory) : Effect call s out s'
  | committed {out : Outcome LinkStoreError Unit} {s' : LinkStore} (d : ReceiptKeyDigest) (next : LinkCatalog)
      (hkey : call.key? = some d) (hplans : Plans s.memory d next)
      (hsnapshot : s'.snapshot = some next.stored)
      (hmemory : s'.memory = next ∨ s'.memory = s.memory)
      (hafter : ∀ e, out = .error e → (discipline fun _ => True).after e) : Effect call s out s'
  | adopted {s' : LinkStore} (c : LinkCatalog) (hkey : call.key? = none) (hdisk : s.OnDisk c)
      (hsnapshot : s'.snapshot = s.snapshot) (hmemory : s'.memory = c) : Effect call s (.ok ()) s'

open Effect

/-- Disk and memory hold sound catalogs, not always the same one. -/
structure LinkStore.Consistent (s : LinkStore) : Prop where
  memory : s.memory.Sound
  disk : ∃ c, s.OnDisk c

theorem Effect.of_mutates {α : Type} {m : LinkM α} {keep : α → Prop} {C : Prop}
    {next : α → LinkCatalog → Prop} (hkey : call.key? = some d)
    (h : Mutates (fun _ => True) m s keep C next) (hnext : ∀ a c, next a c → Plans s.memory d c) :
    Sat (fun _ => True) (LinkCall.forgetting m) s (Effect call s) := by
  refine .bind h ?_ ?_ ?_
  · rintro a t (⟨hsame, -⟩ | ⟨b, c, hc, -, hcommitted⟩)
    · exact .pure (.kept hsame.1 hsame.2.1)
    · exact .pure (.committed d c hkey (hnext b c hc) hcommitted.snapshot_eq
        (.inl hcommitted.memory_eq) nofun)
  · rintro e t (⟨hsame, -⟩ | ⟨b, c, hc, hcommitted, hafter, -⟩)
    · exact .kept hsame.1 hsame.2.1
    · refine .committed d c hkey (hnext b c hc) hcommitted.snapshot_eq (.inr hcommitted.memory_eq) ?_
      rintro _ ⟨⟩
      exact hafter
  · rintro t (⟨hsame, -⟩ | ⟨b, c, hc, hcommitted, -⟩)
    · exact .kept hsame.1 hsame.2.1
    · exact .committed d c hkey (hnext b c hc) hcommitted.snapshot_eq (.inr hcommitted.memory_eq) nofun

theorem Effect.of_looks {α : Type} {m : LinkM α} {Q : α → Prop} {C : Prop}
    (h : (discipline fun _ => True).Looks (fun _ => True) m s Q C) :
    Sat (fun _ => True) (LinkCall.forgetting m) s (Effect call s) :=
  h.bind_sat (fun _ _ => .pure (.kept rfl rfl)) (fun _ _ hs _ _ => .kept hs.1 hs.2.1)
    fun _ hs _ => .kept hs.1 hs.2.1

theorem readByTaskId_looks (taskId : TaskId) :
    (discipline fun _ => True).Looks (fun _ => True) (readByTaskId taskId) s (fun _ => True) True := by
  have h := reports_discipline (V := fun _ : Verdict => True)
  refine (looks_checkDeadline h).bind fun _ _ => (looks_verifyRootAuthority h).bind fun _ _ => ?_
  refine .get_bind ?_
  have hindex : (discipline fun _ => True).Looks (fun _ => True)
      (lift (okOr (.notFound taskId) (s.memory.taskIndex.lookup taskId))) s (fun _ => True) True :=
    (Looks.lift fun e he => ⟨Refuses.okOr (by nofun) e he, trivial⟩).mono (fun _ _ => trivial) id
  refine hindex.bind fun keyDigest _ => ?_
  split
  · exact .pure trivial
  · exact .throw (by nofun) trivial
  · exact .throw (by nofun) trivial

/-- Reloading adopts what is on disk; there is nothing to read before the first commit. -/
theorem reloadDurableCatalog_ends {V : Verdict → Prop} (hdisk : s.OnDisk c) :
    Ends V reloadDurableCatalog s (fun _ s' => s' = s.adopt c)
      (fun e s' => (discipline V).same s s' ∧ (discipline V).before e ∧ (V .fail ∨ s.snapshot = none))
      fun s' => (discipline V).same s s' ∧ V .crash := by
  have h := reports_discipline (V := V)
  have hread : (discipline V).Looks V readCatalogFromDisk s (· = c) (s.snapshot = none) := by
    cases hdisk with
    | snapshot c hc hs => exact looks_readCatalogFromDisk h hc hs
    | absent hs =>
      refine (looks_checkDeadline h).bind fun _ _ => (looks_io h _).bind fun _ _ => ?_
      refine .get_bind ?_
      rw [hs]
      exact .bind (.throw (P := fun _ _ => False) (by nofun) rfl) fun _ _ _ hfalse => hfalse.elim
  have hlooks : (discipline V).Looks V checkDeadline s (fun _ => True) (s.snapshot = none) :=
    looks_checkDeadline h
  refine .bind hlooks ?_
  rintro _ s ⟨-, rfl, -⟩
  have hlooks : (discipline V).Looks V verifyRootAuthority s (fun _ => True) (s.snapshot = none) :=
    looks_verifyRootAuthority h
  refine .bind hlooks ?_
  rintro _ s ⟨-, rfl, -⟩
  refine .bind hread ?_
  rintro _ s ⟨-, rfl, rfl⟩
  exact .modify rfl

/-- **One call.** -/
theorem LinkCall.run_effect (hs : s.Consistent) (call : LinkCall) :
    Sat (fun _ => True) call.run s (Effect call s) := by
  cases call with
  | reserve key link =>
    refine of_mutates rfl (reserveTaskLink_mutates hs.memory) ?_
    rintro held c ⟨habsent, hplan⟩
    obtain ⟨hinserts, hkey⟩ := planReservation_ok hs.memory habsent hplan
    exact keyDigest_of_key (e := .reservation held) hkey ▸ hinserts.plans
  | materialize reservation task version bindEpochMs phase =>
    refine of_mutates rfl (materializeTaskBound_mutates hs.memory) fun record c hplan => ?_
    obtain ⟨hinserts, hkey, -⟩ := planTaskBound_ok hs.memory hplan
    exact keyDigest_of_key (e := .link (.taskBound record)) hkey ▸ hinserts.plans
  | markBegun expected version updatedAtEpochMs =>
    refine of_mutates rfl (markTaskBoundBegun_mutates hs.memory) fun record c hplan => ?_
    obtain ⟨-, hinserts, hkey, -⟩ := planBegun_ok hs.memory hplan.2
    exact keyDigest_of_key (e := .link (.taskBound record)) hkey ▸ hinserts.plans
  | refresh expected task =>
    refine of_mutates rfl (refreshTaskBoundProjection_mutates hs.memory) fun record c hplan => ?_
    obtain ⟨-, hinserts, hkey, -⟩ := planRefreshed_ok hs.memory hplan
    exact keyDigest_of_key (e := .link (.taskBound record)) hkey ▸ hinserts.plans
  | publishTerminal expected task version status digest terminalEpochMs =>
    refine of_mutates rfl (publishTaskTerminalBound_mutates hs.memory) fun record c hplan => ?_
    obtain ⟨-, hinserts, hkey, -⟩ := planTerminalBound_ok hs.memory hplan
    exact keyDigest_of_key (e := .link (.taskTerminalBound record)) hkey ▸ hinserts.plans
  | beginRetirement expected invocationBytes taskBytes =>
    refine of_mutates rfl (beginTaskRetirement_mutates hs.memory) fun record c hplan => ?_
    obtain ⟨-, hinserts, hkey, -⟩ := planRetirement_ok hs.memory hplan
    exact keyDigest_of_key (e := .link (.taskRetirementPending record)) hkey ▸ hinserts.plans
  | finalizeRetirement expected =>
    exact of_mutates rfl (finalizeTaskRetirement_mutates hs.memory) fun _ c hplan =>
      (planRemoval_ok hs.memory hplan).2.1
  | read taskId => exact of_looks (readByTaskId_looks taskId)
  | reload =>
    obtain ⟨c, hdisk⟩ := hs.disk
    refine Ends.sat (reloadDurableCatalog_ends hdisk) ?_ ?_ ?_
    · rintro _ t rfl
      exact .adopted c rfl hdisk rfl rfl
    · rintro e t ⟨hsame, -⟩
      exact .kept hsame.1 hsame.2.1
    · rintro t ⟨hsame, -⟩
      exact .kept hsame.1 hsame.2.1
  | reopen =>
    obtain ⟨c, hdisk⟩ := hs.disk
    refine Ends.sat (openLinkStore_ends hdisk) ?_ ?_ ?_
    · rintro _ t ⟨hsnapshot, hmemory, -⟩
      exact .adopted c rfl hdisk hsnapshot hmemory
    · rintro e t ⟨hsame, -⟩
      exact .kept hsame.1 hsame.2.1
    · rintro t ⟨hsame, -⟩
      exact .kept hsame.1 hsame.2.1

theorem Effect.consistent {out : Outcome LinkStoreError Unit} (hs : s.Consistent) (h : Effect call s out s') :
    s'.Consistent := by
  obtain ⟨c, hdisk⟩ := hs.disk
  cases h with
  | kept hsnapshot hmemory => exact ⟨hmemory ▸ hs.memory, c, hdisk.congr hsnapshot⟩
  | committed d next hkey hplans hsnapshot hmemory hafter =>
    refine ⟨?_, next, .snapshot next hplans.sound hsnapshot⟩
    rcases hmemory with hmemory | hmemory
    · rw [hmemory]
      exact hplans.sound
    · rw [hmemory]
      exact hs.memory
  | adopted c' hkey hdisk' hsnapshot hmemory =>
    exact ⟨hmemory ▸ hdisk'.sound, c, hdisk.congr hsnapshot⟩

/-! ## What is on disk for a key -/

def StoredEntry.head : StoredEntry → StoredHead
  | reservation head => head
  | taskBound head _ _ _ _ => head
  | taskTerminalBound head _ _ _ _ _ _ => head
  | taskRetirementPending head _ _ _ _ _ _ _ _ _ => head

open StoredEntry

def LinkStore.durable (s : LinkStore) (d : ReceiptKeyDigest) : Option StoredEntry :=
  s.snapshot.bind fun stored => stored.entries.find? fun entry =>
    receiptKeyDigest entry.head.key = d

theorem head_fromCatalogEntry (entry : LinkEntry) :
    (fromCatalogEntry entry).head.key = entry.header.key := by
  cases entry with
  | reservation _ => rfl
  | link record => cases record <;> rfl

theorem find_stored (hc : c.Sound) (d : ReceiptKeyDigest) (keys : List ReceiptKeyDigest) :
    (keys.filterMap fun k => (c.entries.lookup k).map fromCatalogEntry).find?
        (fun entry => decide (receiptKeyDigest entry.head.key = d))
      = if d ∈ keys then (c.entries.lookup d).map fromCatalogEntry else none := by
  induction keys with
  | nil => rfl
  | cons k keys ih =>
    cases hk : c.entries.lookup k with
    | none =>
      rw [filterMap_cons_none (by rw [hk]; rfl), ih]
      by_cases hd : d = k
      · subst hd
        simp [hk]
      · simp [hd]
    | some entry =>
      have hdigest : receiptKeyDigest (fromCatalogEntry entry).head.key = k := by
        rw [head_fromCatalogEntry]
        exact hc.keyed k entry hk
      rw [filterMap_cons_some (by rw [hk]; rfl), find?_cons, ih, hdigest]
      by_cases hd : d = k
      · subst hd
        simp [hk]
      · simp [hd, Ne.symm hd]

/-- The link on disk is the catalog's. -/
theorem LinkStore.OnDisk.durable_eq (h : s.OnDisk c) (d : ReceiptKeyDigest) :
    s.durable d = (c.entries.lookup d).map fromCatalogEntry := by
  cases h with
  | snapshot c hc hs =>
    unfold durable
    rw [hs]
    refine (find_stored hc d c.entries.sortedKeys).trans ?_
    split
    · rfl
    · cases hd : c.entries.lookup d with
      | none => rfl
      | some v => exact absurd (Table.mem_sortedKeys.mpr ⟨v, hd⟩) ‹_›
  | absent hs =>
    unfold durable
    rw [hs]
    simp [empty]

/-! ## Whole runs -/

namespace LinkStore

/-- One call, with any faults. -/
def Step (allowed : LinkCall → Prop) (s s' : LinkStore) : Prop :=
  ∃ call o, allowed call ∧ s' = (call.run s o).state

abbrev Runs (allowed : LinkCall → Prop) : LinkStore → LinkStore → Prop :=
  Relation.ReflTransGen (LinkStore.Step allowed)

/-- A store that some run of calls leads to. -/
def Reachable (s : LinkStore) : Prop := LinkStore.Runs (fun _ => True) .fresh s

theorem consistent_fresh : fresh.Consistent :=
  ⟨sound_empty, .empty, .absent rfl⟩

theorem Consistent.run (hs : s.Consistent) (call : LinkCall) (o : List Verdict) :
    (call.run s o).state.Consistent :=
  consistent hs (call.run_effect hs o fun _ _ => trivial).1

theorem Consistent.runs {allowed : LinkCall → Prop} (hs : s.Consistent)
    (hrun : Runs allowed s s') : s'.Consistent := by
  induction hrun with
  | refl => exact hs
  | tail _ hstep ih =>
    obtain ⟨call, o, -, rfl⟩ := hstep
    exact ih.run call o

/-- Disk and memory have the same link for the key. -/
structure InStep (d : ReceiptKeyDigest) (s : LinkStore) : Prop where
  consistent : s.Consistent
  agree : s.durable d = (s.memory.entries.lookup d).map fromCatalogEntry

/-- A call for another key leaves the link of this one where it is, on disk and in memory. -/
theorem InStep.run (h : s.InStep d) (hkey : call.key? ≠ some d) (o : List Verdict) :
    (call.run s o).state.InStep d ∧ (call.run s o).state.durable d = s.durable d := by
  have heffect := (call.run_effect h.consistent o fun _ _ => trivial).1
  have hconsistent := h.consistent.run call o
  generalize (call.run s o).state = t at *
  generalize (call.run s o).outcome = out at heffect
  cases heffect with
  | kept hsnapshot hmemory =>
    have hdurable : t.durable d = s.durable d := by
      unfold durable
      rw [hsnapshot]
    exact ⟨⟨hconsistent, by rw [hdurable, hmemory, h.agree]⟩, hdurable⟩
  | committed d' next hkey' hplans hsnapshot hmemory hafter =>
    have hne : d ≠ d' := fun heq => hkey (heq ▸ hkey')
    have hdurable : t.durable d = s.durable d := by
      rw [(OnDisk.snapshot next hplans.sound hsnapshot).durable_eq, hplans.frame d hne, h.agree]
    refine ⟨⟨hconsistent, ?_⟩, hdurable⟩
    rw [hdurable, h.agree]
    rcases hmemory with hmemory | hmemory
    · rw [hmemory, hplans.frame d hne]
    · rw [hmemory]
  | adopted c hkey' hdisk hsnapshot hmemory =>
    have hdurable : t.durable d = s.durable d := by
      unfold durable
      rw [hsnapshot]
    exact ⟨⟨hconsistent, by rw [hdurable, hmemory, hdisk.durable_eq]⟩, hdurable⟩

theorem InStep.runs (h : s.InStep d) (hrun : Runs (fun call => call.key? ≠ some d) s s') :
    s'.InStep d ∧ s'.durable d = s.durable d := by
  induction hrun with
  | refl => exact ⟨h, rfl⟩
  | tail _ hstep ih =>
    obtain ⟨call, o, hkey, rfl⟩ := hstep
    obtain ⟨hin, hdurable⟩ := ih.1.run hkey o
    exact ⟨hin, hdurable.trans ih.2⟩

/-- Calls that change no link leave the disk alone. -/
theorem Consistent.idle (hs : s.Consistent)
    (hrun : Runs (fun call => call.key? = none) s s') : s'.durable d = s.durable d := by
  induction hrun with
  | refl => rfl
  | @tail t u hprefix hstep ih =>
    obtain ⟨call, o, hkey, rfl⟩ := hstep
    have heffect := (call.run_effect (hs.runs hprefix) o fun _ _ => trivial).1
    rw [← ih]
    generalize (call.run t o).outcome = out at heffect
    unfold durable
    cases heffect with
    | kept hsnapshot _ => rw [hsnapshot]
    | committed d' next hkey' => rw [hkey] at hkey'; cases hkey'
    | adopted c _ _ hsnapshot _ => rw [hsnapshot]

theorem Consistent.reload (hs : s.Consistent) {o : List Verdict}
    (hok : (LinkCall.reload.run s o).outcome = .ok ()) (d : ReceiptKeyDigest) :
    (LinkCall.reload.run s o).state.InStep d
      ∧ (LinkCall.reload.run s o).state.durable d = s.durable d := by
  have hidle : (LinkCall.reload.run s o).state.durable d = s.durable d :=
    hs.idle (.single ⟨.reload, o, rfl, rfl⟩)
  obtain ⟨c, hdisk⟩ := hs.disk
  refine ⟨⟨hs.run _ o, ?_⟩, hidle⟩
  have hadopts := (reloadDurableCatalog_ends hdisk o fun _ _ => trivial).1
  rw [show (reloadDurableCatalog s o).outcome = .ok () from hok] at hadopts
  have hmemory : (LinkCall.reload.run s o).state.memory = c := congrArg LinkStore.memory hadopts
  rw [hidle, hdisk.durable_eq, hmemory]

end LinkStore

/-! ## Failed commits -/

/-- The refusals after which a caller goes on without reloading. -/
def LinkStoreError.Rejects : LinkStoreError → Prop
  | deadlineExceeded | recordTooLarge _ _ | notFound _ => True
  | _ => False

/-- **Failed commits.** A call that reports a missed deadline, a record that is too large or no
such link changed neither disk nor memory. Whatever another failed mutation left on disk for its
key is there after any later calls for other keys, once the store was reloaded. -/
theorem failed_commit_keeps_links (hs : s.Reachable) (call : LinkCall) (o : List Verdict) :
    (∀ e, (call.run s o).outcome = .error e → e.Rejects →
        (call.run s o).state.snapshot = s.snapshot ∧ (call.run s o).state.memory = s.memory)
    ∧ ∀ d u o' w, call.key? = some d → (call.run s o).outcome ≠ .ok () →
        LinkStore.Runs (fun idle => idle.key? = none) (call.run s o).state u →
        (LinkCall.reload.run u o').outcome = .ok () →
        LinkStore.Runs (fun later => later.key? ≠ some d) (LinkCall.reload.run u o').state w →
        w.durable d = (call.run s o).state.durable d := by
  have hconsistent : s.Consistent := LinkStore.consistent_fresh.runs hs
  constructor
  · intro e herror hrejects
    have heffect := (call.run_effect hconsistent o fun _ _ => trivial).1
    rw [herror] at heffect
    cases heffect with
    | kept hsnapshot hmemory => exact ⟨hsnapshot, hmemory⟩
    | committed d next hkey hplans hsnapshot hmemory hafter =>
      rcases hafter e rfl with ⟨_, rfl⟩ | ⟨_, rfl⟩ | ⟨_, rfl⟩ <;> exact hrejects.elim
  · intro d u o' w _ _ hidle hreload hlater
    have hafter := hconsistent.run call o
    obtain ⟨hin, hdurable⟩ := (hafter.runs hidle).reload hreload d
    rw [(hin.runs hlater).2, hdurable, hafter.idle hidle]

/-- **Reopening.** Whatever calls ran, with whatever faults and crashes, a sound catalog is on disk,
and an opening without faults adopts it, unless a removal has left its quarantine. -/
theorem reachable_store_reopens (hs : s.Reachable) :
    ∃ c : LinkCatalog, c.Sound ∧ (∀ d, s.durable d = (c.entries.lookup d).map fromCatalogEntry) ∧
      ∀ o, (∀ v ∈ o, Proceeds v) → s.quarantined = 0 →
        (LinkCall.reopen.run s o).outcome = .ok () ∧ (LinkCall.reopen.run s o).state.memory = c := by
  obtain ⟨c, hdisk⟩ := (LinkStore.consistent_fresh.runs hs).disk
  refine ⟨c, hdisk.sound, hdisk.durable_eq, fun o ho hclean => ?_⟩
  have hopen := (openLinkStore_ends hdisk o ho).1
  cases hout : (openLinkStore s o).outcome with (rw [hout] at hopen)
  | ok => exact ⟨hout, hopen.2.1⟩
  | error e =>
    obtain ⟨-, -, hfail | hpos⟩ := hopen
    · exact absurd hfail proceeds_fail
    · omega
  | crashed => exact absurd hopen.2 proceeds_crash

end Machine

def plainKey (invocationId : InvocationId) : ReceiptKey := ⟨invocationId, invocationId, 0, .resolve, 0, 0⟩

def plainReserve [ReceiptCodec] (invocationId : InvocationId) : LinkCall :=
  .reserve (plainKey invocationId) ⟨invocationId, invocationId, invocationId, 0⟩

/-- The directory cannot be synchronized after the rename. -/
def unsynced : List Verdict := List.replicate 18 .proceed ++ [.fail]

open Unica.Task

/-- The first reservation of a new store, with `unsynced`. -/
def plainUnsynced [ReceiptCodec] : Run LinkStore LinkStoreError Unit :=
  (plainReserve 1).run .fresh unsynced

theorem failed_commit_keeps_links_plainReserve :
    letI := plainCodec
    plainUnsynced.outcome = .error (.commitUncertain 1) ∧ plainUnsynced.state.durable 1 ≠ none
      ∧ ((plainReserve 2).run (LinkCall.reload.run plainUnsynced.state []).state []).outcome = .ok ()
      ∧ ((plainReserve 2).run (LinkCall.reload.run plainUnsynced.state []).state []).state.durable 1
          = plainUnsynced.state.durable 1 := by
  let _ := plainCodec
  have hlater : LinkStore.Runs (fun later => later.key? ≠ some 1)
      (LinkCall.reload.run plainUnsynced.state []).state
      ((plainReserve 2).run (LinkCall.reload.run plainUnsynced.state []).state []).state :=
    .single ⟨plainReserve 2, [], by decide, rfl⟩
  exact ⟨by decide +kernel, by decide +kernel, by decide +kernel,
    (failed_commit_keeps_links .refl (plainReserve 1) unsynced).2 1 _ [] _ rfl (by decide +kernel) .refl
      (by decide +kernel) hlater⟩

/-- Without the reload the next reservation writes the catalog in memory over the one on disk. -/
theorem link_lost_without_reload :
    letI := plainCodec
    plainUnsynced.outcome = .error (.commitUncertain 1) ∧ plainUnsynced.state.durable 1 ≠ none
      ∧ ((plainReserve 2).run plainUnsynced.state []).outcome = .ok ()
      ∧ ((plainReserve 2).run plainUnsynced.state []).state.durable 1 = none := by
  decide +kernel

theorem reachable_store_reopens_plainReserve : letI := plainCodec
    plainUnsynced.state.durable 1 ≠ none ∧ ∃ c : LinkCatalog, c.Sound ∧
      plainUnsynced.state.durable 1 = (c.entries.lookup 1).map StoredEntry.fromCatalogEntry := by
  let _ := plainCodec
  obtain ⟨c, hc, hdisk, -⟩ := reachable_store_reopens (.single ⟨plainReserve 1, unsynced, trivial, rfl⟩)
  exact ⟨by decide +kernel, c, hc, hdisk 1⟩

end Unica.Link
