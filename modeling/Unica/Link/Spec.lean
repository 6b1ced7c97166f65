import Unica.Link.Catalog

/-!
# What the link store's operations do

A mutation leaves disk and memory as they were, or it has put the planned catalog on
disk. Only a success has also put it in memory: after an error the memory is still the
catalog from before, so disk and memory differ until the store is reloaded or opened
again.
-/

namespace Unica.Link

open Lib Receipt Prog Discipline Ends Looks LinkStoreError

variable [ReceiptCodec] {V : Verdict → Prop} {D : Discipline LinkStore LinkStoreError}
variable {c : LinkCatalog} {keyDigest : ReceiptKeyDigest} {s s' : LinkStore} {C : Prop} {α : Type}

/-- Errors and effects of the link store's programs. -/
def discipline (V : Verdict → Prop) : Discipline LinkStore LinkStoreError where
  same s s' := s'.snapshot = s.snapshot ∧ s'.memory = s.memory
    ∧ (s'.quarantined = s.quarantined ∨ V .fail ∨ V .crash)
  before e := ∀ keyDigest, e ≠ .commitUncertain keyDigest
  after e := (∃ keyDigest, e = .commitUncertain keyDigest) ∨ (∃ operation, e = .storage operation)
    ∨ ∃ message, e = .corrupt message
  same_refl _ := ⟨rfl, rfl, .inl rfl⟩
  same_trans s t u hst htu := by
    refine ⟨htu.1.trans hst.1, htu.2.1.trans hst.2.1, ?_⟩
    rcases hst.2.2 with hq | hv
    · exact htu.2.2.imp_left (·.trans hq)
    · exact .inr hv

/-- Reading a snapshot that decodes: only the deadline and the file system can fail. -/
def reading : Discipline LinkStore LinkStoreError where
  same s s' := s' = s
  before e := e = .deadlineExceeded ∨ ∃ operation, e = .storage operation
  after _ := False
  same_refl _ := rfl
  same_trans _ _ _ hst htu := htu.trans hst

structure Reports (D : Discipline LinkStore LinkStoreError) : Prop where
  deadline : D.before .deadlineExceeded
  storage : ∀ operation, D.before (.storage operation)

theorem reports_discipline : Reports (discipline V) := ⟨nofun, fun _ => nofun⟩

theorem reports_reading : Reports reading := ⟨.inl rfl, fun operation => .inr ⟨operation, rfl⟩⟩

theorem looks_checkDeadline (h : Reports D) : D.Looks V checkDeadline s (fun _ => True) C :=
  .attempt h.deadline

theorem looks_io (h : Reports D) (operation : String) : D.Looks V (io operation) s (fun _ => True) C :=
  .attempt (h.storage operation)

theorem looks_verifyRootAuthority (h : Reports D) : D.Looks V verifyRootAuthority s (fun _ => True) C :=
  (looks_io h _).bind fun _ _ => looks_io h _

/-- The snapshot of a sound catalog is read as that catalog. -/
theorem looks_readCatalogFromDisk (h : Reports D) (hc : c.Sound)
    (hs : s.snapshot = some c.stored) : D.Looks V readCatalogFromDisk s (fun r => r = c) C := by
  refine (looks_checkDeadline h).bind fun _ _ => (looks_io h _).bind fun _ _ => ?_
  refine .get_bind ?_
  have hopen : D.Looks V (lift (okOr (.storage "open Task lifecycle-link snapshot") s.snapshot)) s
      (fun stored => stored = c.stored) C := by
    rw [hs]
    exact .pure rfl
  refine hopen.bind ?_
  rintro _ rfl
  refine (looks_io h _).bind fun _ _ => (looks_checkDeadline h).bind fun _ _ => ?_
  refine (looks_io h _).bind fun _ _ => ?_
  have hread : D.Looks V (lift c.stored.read) s (fun r => r = c) C := by
    rw [hc.read_stored]
    exact .pure rfl
  refine hread.bind ?_
  rintro _ rfl
  exact (looks_checkDeadline h).bind fun _ _ => (looks_verifyRootAuthority h).bind fun _ _ =>
    .pure rfl

/-- Removing a staged file changes nothing but a quarantine a fault leaves behind. -/
theorem stays_removeStateRegularChild (operation : String) :
    (discipline V).Stays V (removeStateRegularChild operation) s (fun _ _ => True) C := by
  have hself := (discipline V).same_refl s
  refine bind (.attempt (Q := fun _ t => t = s) rfl (fun h => ⟨hself, nofun, .inl h⟩)
    fun h => ⟨hself, h⟩) ?_
  rintro _ s rfl
  refine modify_bind ?_
  refine bind (.attempt (Q := fun _ t => t = s.unstage.quarantine) rfl
    (fun h => ⟨⟨rfl, rfl, .inr (.inl h)⟩, nofun, .inl h⟩) fun h => ⟨⟨rfl, rfl, .inr (.inr h)⟩, h⟩) ?_
  rintro _ _ rfl
  exact modify ⟨⟨rfl, rfl, .inl (Nat.add_sub_cancel _ 1)⟩, trivial⟩

theorem stays_stageCatalog : (discipline V).Stays V stageCatalog s (fun _ _ => True) C := by
  have h := reports_discipline (V := V)
  have hclean : ∀ t t', (discipline V).same t t' → Ends V discardStaging t'
      (fun _ u => (discipline V).same t' u) (fun _ u => (discipline V).same t' u)
      fun u => (discipline V).same t' u ∧ V .crash := fun _ _ _ =>
    .mono (stays_removeStateRegularChild (C := False) _) (fun _ _ h => h.1) (fun _ _ h => h.1) fun _ h => h
  refine .bind (looks_checkDeadline h) fun _ t _ _ => ?_
  refine .bind (looks_verifyRootAuthority h) fun _ t _ _ => ?_
  refine .bind (looks_io h _) fun _ t _ _ => ?_
  refine .bind (.modify (P := fun _ _ => True) ⟨rfl, rfl, .inl rfl⟩ trivial) fun _ t _ _ => ?_
  refine .bind (looks_io h _) fun _ t _ _ => ?_
  refine .bind ((looks_io h _).cleaningUp (hclean t)) fun _ t _ _ => ?_
  have hwrite : (discipline V).Looks V (do
      checkDeadline
      io "serialize Task lifecycle-link snapshot"
      io "sync Task lifecycle-link staging file") t (fun _ => True) C :=
    (looks_checkDeadline h).bind fun _ _ => (looks_io h _).bind fun _ _ => looks_io h _
  refine .bind (hwrite.cleaningUp (hclean t)) fun _ t _ _ => ?_
  refine .bind (looks_checkDeadline h) fun _ t _ _ => ?_
  refine .bind (looks_verifyRootAuthority h) fun _ t _ _ => ?_
  refine .bind (looks_io h _) fun _ t _ _ => ?_
  have hverify : (discipline V).Looks V verifyExistingSnapshot t (fun _ => True) C := by
    refine .get_bind ?_
    split
    · exact looks_io h _
    · exact pure trivial
  refine .bind hverify fun _ t _ _ => ?_
  exact .mono ((looks_io h _).cleaningUp (hclean t)) (fun _ _ _ _ => trivial) id

/-- Once the catalog is on disk, an error is an uncertain commit or one of the readback. -/
theorem confirmCatalog_settles {write : LinkCatalog → LinkStore → Prop} (hc : c.Sound)
    (hs : s.snapshot = some c.stored) (h : write c s) : Ends V (confirmCatalog c keyDigest) s write
      (fun e t => (discipline V).after e ∧ V .fail ∧ ∃ r, write r t) fun t => V .crash ∧ ∃ r, write r t := by
  have huncertain : Ends V (attempt (.commitUncertain keyDigest) : LinkM Unit) s (fun _ t => t = s)
      (fun e t => (discipline V).after e ∧ V .fail ∧ ∃ r, write r t) fun t => V .crash ∧ ∃ r, write r t :=
    .attempt rfl (fun hv => ⟨.inl ⟨_, rfl⟩, hv, c, h⟩) fun hv => ⟨hv, c, h⟩
  refine .bind huncertain ?_
  rintro _ s rfl
  refine .bind huncertain ?_
  rintro _ s rfl
  have hread : reading.Looks V readCatalogFromDisk s (fun r => r = c) False :=
    looks_readCatalogFromDisk reports_reading hc hs
  refine .bind (P := fun r t => t = s ∧ r = c) ?_ ?_
  · refine .bind (.mono (.reify hread) (fun _ _ h => h) (fun _ _ h => h) ?_) ?_
    · rintro _ ⟨rfl, hv⟩
      exact ⟨hv, c, h⟩
    rintro (e | r) t ht
    · obtain ⟨rfl, hbefore, hfail | hfalse⟩ := ht
      · rcases hbefore with rfl | ⟨operation, rfl⟩
        · exact .throw ⟨.inl ⟨_, rfl⟩, hfail, c, h⟩
        · exact .throw ⟨.inr (.inl ⟨_, rfl⟩), hfail, c, h⟩
      · exact hfalse.elim
    · obtain ⟨rfl, -, rfl⟩ := ht
      exact .pure ⟨rfl, rfl⟩
  · rintro r t ⟨rfl, rfl⟩
    have hsame : (refuseIf (r ≠ r) (corrupt
        "Task lifecycle-link exact durable readback changed the committed catalog")) = .ok () :=
      refuseIf_eq_ok.mpr (not_ne_iff.mpr rfl)
    rw [hsame]
    exact .pure h

/-- What a commit that failed or was cut before the rename leaves, and what one after it. -/
theorem commit_sat {next : LinkCatalog} (hnext : next.Sound) :
    Sat V (commit next keyDigest) s fun out s' => ((discipline V).same s s' ∧ match out with
        | .ok _ => False
        | .error e => (discipline V).before e ∧ V .fail
        | .crashed => V .crash) ∨
      (s'.snapshot = some next.stored ∧ (s'.quarantined = s.quarantined ∨ V .fail ∨ V .crash)
        ∧ match out with
          | .ok _ => s'.memory = next
          | .error e => s'.memory = s.memory ∧ (discipline V).after e ∧ V .fail
          | .crashed => s'.memory = s.memory ∧ V .crash) := by
  have hpublish : (discipline V).Updates V (publishAndReadback next keyDigest) s (fun _ => False) False
      fun r s' => r = next ∧ s'.snapshot = some next.stored ∧ s'.memory = s.memory
        ∧ (s'.quarantined = s.quarantined ∨ V .fail ∨ V .crash) := by
    refine .after_stays stays_stageCatalog fun _ t hst _ => ?_
    exact .of_settled (modify_bind (confirmCatalog_settles hnext rfl ⟨rfl, rfl, hst.2⟩))
  refine Sat.bind hpublish ?_ ?_ ?_
  · rintro r t (⟨-, hfalse⟩ | ⟨_, ⟨rfl, hsnapshot, -, hquarantined⟩, rfl⟩)
    · exact hfalse.elim
    · exact Sat.modify (.inr ⟨hsnapshot, hquarantined, rfl⟩)
  · rintro e t (⟨hs, hbefore, hv⟩ | ⟨_, ⟨-, hsnapshot, hmemory, hquarantined⟩, hafter⟩)
    · exact .inl ⟨hs, hbefore, hv.resolve_right id⟩
    · exact .inr ⟨hsnapshot, hquarantined, hmemory, hafter⟩
  · rintro t (hbefore | ⟨_, ⟨-, hsnapshot, hmemory, hquarantined⟩, hcrash⟩)
    · exact .inl hbefore
    · exact .inr ⟨hsnapshot, hquarantined, hmemory, hcrash⟩

/-! ## Opening -/

theorem stays_removeAbandonedStaging (n : Nat) :
    (discipline V).Stays V (removeAbandonedStaging n) s (fun _ _ => True) C := by
  have h := reports_discipline (V := V)
  induction n generalizing s with
  | zero => exact .pure trivial
  | succ n ih =>
    refine .bind (looks_checkDeadline h) fun _ t _ _ => ?_
    refine .bind (looks_verifyRootAuthority h) fun _ t _ _ => ?_
    refine .bind (looks_io h _) fun _ t _ _ => ?_
    refine .bind (looks_io h _) fun _ t _ _ => ?_
    refine .bind (looks_io h _) fun _ t _ _ => ?_
    exact .bind (stays_removeStateRegularChild _) fun _ t _ _ => ih

theorem stays_recoverStaging (n : Nat) :
    (discipline V).Stays V (recoverStaging n) s (fun _ _ => True) C := by
  refine .bind (stays_removeAbandonedStaging n) fun _ t _ _ => ?_
  split
  · exact .mono (looks_io reports_discipline _) (fun _ _ _ _ => trivial) id
  · exact .pure trivial

/-- The catalog on disk: that of the snapshot, or none yet. -/
inductive LinkStore.OnDisk (s : LinkStore) : LinkCatalog → Prop where
  | snapshot (c : LinkCatalog) (hc : c.Sound) (hs : s.snapshot = some c.stored) : OnDisk s c
  | absent (hs : s.snapshot = none) : OnDisk s .empty

theorem LinkStore.OnDisk.sound (h : s.OnDisk c) : c.Sound := by
  cases h with
  | snapshot _ hc _ => exact hc
  | absent _ => exact LinkCatalog.sound_empty

theorem LinkStore.OnDisk.congr (h : s.OnDisk c) (hs : s'.snapshot = s.snapshot) : s'.OnDisk c := by
  cases h with
  | snapshot c hc h => exact .snapshot c hc (hs.trans h)
  | absent h => exact .absent (hs.trans h)

theorem looks_readSnapshot (h : Reports D) (hdisk : s.OnDisk c) :
    D.Looks V readSnapshot s (fun r => r = c) C := by
  refine .get_bind ?_
  cases hdisk with
  | snapshot c hc hs =>
    rw [if_pos (by rw [hs]; rfl)]
    exact looks_readCatalogFromDisk h hc hs
  | absent hs =>
    rw [if_neg (by rw [hs]; decide)]
    exact pure rfl

/-- Opening adopts what is on disk. Without faults it refuses only a directory with a quarantine. -/
theorem openLinkStore_ends (hdisk : s.OnDisk c) :
    Ends V openLinkStore s (fun _ s' => s'.snapshot = s.snapshot ∧ s'.memory = c ∧ s.quarantined = 0
        ∧ (s'.quarantined = 0 ∨ V .fail ∨ V .crash))
      (fun e s' => (discipline V).same s s' ∧ (discipline V).before e ∧ (V .fail ∨ 0 < s.quarantined))
      fun s' => (discipline V).same s s' ∧ V .crash := by
  have h := reports_discipline (V := V)
  have hcheck : (discipline V).Looks V (lift (refuseIf (0 < s.quarantined)
      (.corrupt "Task lifecycle-link root contains an unsupported entry"))) s
      (fun _ => s.quarantined = 0) (0 < s.quarantined) := by
    refine (lift fun e he => ?_).mono
      (fun _ hok => Nat.eq_zero_of_not_pos (refuseIf_eq_ok.mp hok)) id
    obtain ⟨hpos, rfl⟩ := refuseIf_eq_error.mp he
    exact ⟨nofun, hpos⟩
  have hstays : (discipline V).Stays V inspectAndRecover s
      (fun r s' => r = c ∧ s.quarantined = 0) (0 < s.quarantined) := by
    refine .look (looks_checkDeadline h) fun _ _ => ?_
    refine .look (looks_io h _) fun _ _ => ?_
    refine .look (looks_verifyRootAuthority h) fun _ _ => ?_
    refine .look (looks_io h _) fun _ _ => ?_
    refine .look (looks_io h _) fun _ _ => ?_
    refine .look (attempt (by nofun)) fun _ _ => ?_
    refine .look (looks_verifyRootAuthority h) fun _ _ => ?_
    refine .look (looks_checkDeadline h) fun _ _ => ?_
    refine .get_bind ?_
    refine .look hcheck fun _ hclean => ?_
    refine .look (looks_io h _) fun _ _ => ?_
    refine .look (looks_readSnapshot h hdisk) ?_
    rintro r rfl
    refine .bind (stays_recoverStaging _) fun _ t _ _ => ?_
    refine .bind (looks_verifyRootAuthority h) fun _ t _ _ => ?_
    exact .pure ⟨rfl, hclean⟩
  refine .bind hstays ?_
  rintro r t ⟨⟨hsnapshot, -, hquarantined⟩, rfl, hclean⟩
  refine .modify ⟨hsnapshot, rfl, hclean, ?_⟩
  exact hquarantined.imp_left (·.trans hclean)

/-! ## Mutations -/

/-- The catalog a mutation ended with: on disk whatever it returned, in memory where it succeeded. -/
structure LinkStore.Committed (V : Verdict → Prop) (s s' : LinkStore) (c : LinkCatalog) (succeeded : Bool) :
    Prop where
  sound : c.Sound
  snapshot_eq : s'.snapshot = some c.stored
  memory_eq : s'.memory = if succeeded then c else s.memory
  quarantined_eq : s'.quarantined = s.quarantined ∨ V .fail ∨ V .crash

/-- A mutation keeps everything and returns a value in `keep`, or it commits a catalog `next` allows.
It refuses only where `C` says so. -/
def Mutates (V : Verdict → Prop) (m : LinkM α) (s : LinkStore) (keep : α → Prop) (C : Prop)
    (next : α → LinkCatalog → Prop) : Prop :=
  Sat V m s fun out s' =>
    ((discipline V).same s s' ∧ match out with
      | .ok a => keep a
      | .error e => (discipline V).before e ∧ (V .fail ∨ C)
      | .crashed => V .crash) ∨
    ∃ a c, next a c ∧ match out with
      | .ok b => b = a ∧ s.Committed V s' c true
      | .error e => s.Committed V s' c false ∧ (discipline V).after e ∧ V .fail
      | .crashed => s.Committed V s' c false ∧ V .crash

namespace Mutates

variable {β : Type} {m : LinkM α} {f : α → LinkM β} {keep : β → Prop} {next : β → LinkCatalog → Prop}
  {Q : α → Prop}

theorem look (hm : (discipline V).Looks V m s Q C) (hf : ∀ a, Q a → Mutates V (f a) s keep C next) :
    Mutates V (m >>= f) s keep C next :=
  hm.bind_sat hf (fun _ _ hs he hv => .inl ⟨hs, he, hv⟩) fun _ hs hv => .inl ⟨hs, hv⟩

theorem of_looks {keep : α → Prop} {next : α → LinkCatalog → Prop}
    (hm : (discipline V).Looks V m s keep C) : Mutates V m s keep C next :=
  sat hm (fun _ _ h => .inl ⟨h.1, h.2.2⟩) (fun _ _ h => .inl h) fun _ h => .inl h

theorem mono {keep keep' : α → Prop} {next next' : α → LinkCatalog → Prop} {C' : Prop}
    (h : Mutates V m s keep C next) (hk : ∀ a, keep a → keep' a) (hc : C → C')
    (hn : ∀ a c, next a c → next' a c) : Mutates V m s keep' C' next' := by
  refine Sat.mono h fun out s' => ?_
  rintro (⟨hs, hout⟩ | ⟨a, c, hnext, hout⟩)
  · cases out with
    | ok a => exact .inl ⟨hs, hk a hout⟩
    | error e => exact .inl ⟨hs, hout.1, hout.2.imp_right hc⟩
    | crashed => exact .inl ⟨hs, hout⟩
  · exact .inr ⟨a, c, hn a c hnext, hout⟩

/-- The commit of a planned catalog, then a check that finds what was adopted. -/
theorem committing {keep : α → Prop} {a : α} {check : LinkM Unit} (hc : c.Sound)
    (hcheck : ∀ t, t.memory = c → ∀ o, check t o = ⟨.ok (), t, o⟩) :
    Mutates V (do commit c keyDigest; check; pure a) s keep C fun b c' => b = a ∧ c' = c := by
  refine .bind (commit_sat hc) ?_ ?_ ?_
  · rintro _ t (⟨-, hfalse⟩ | ⟨hsnapshot, hquarantined, hmemory⟩)
    · exact hfalse.elim
    · have hrest : ∀ o, (check >>= fun _ => pure a) t o = ⟨.ok a, t, o⟩ := by
        intro o
        rw [bind_of_ok (congrArg Run.outcome (hcheck t hmemory o)), hcheck t hmemory o]
        rfl
      intro o ho
      rw [hrest o]
      exact ⟨.inr ⟨a, c, ⟨rfl, rfl⟩, rfl, hc, hsnapshot, hmemory, hquarantined⟩, ho⟩
  · rintro e t (⟨hs, hbefore, hv⟩ | ⟨hsnapshot, hquarantined, hmemory, hafter, hv⟩)
    · exact .inl ⟨hs, hbefore, .inl hv⟩
    · exact .inr ⟨a, c, ⟨rfl, rfl⟩, ⟨hc, hsnapshot, hmemory, hquarantined⟩, hafter, hv⟩
  · rintro t (⟨hs, hv⟩ | ⟨hsnapshot, hquarantined, hmemory, hv⟩)
    · exact .inl ⟨hs, hv⟩
    · exact .inr ⟨a, c, ⟨rfl, rfl⟩, ⟨hc, hsnapshot, hmemory, hquarantined⟩, hv⟩

/-- Without faults the catalog in memory is the one on disk, and an error is a refusal. -/
theorem proceeds {keep : α → Prop} {next : α → LinkCatalog → Prop} (h : Mutates Proceeds m s keep C next)
    (hdisk : s.OnDisk s.memory) : Ends Proceeds m s
      (fun a s' => s'.OnDisk s'.memory ∧ s'.quarantined = s.quarantined
        ∧ ((s'.memory = s.memory ∧ keep a) ∨ next a s'.memory))
      (fun _ _ => C) fun _ => False := by
  have hfault : ¬ (Proceeds .fail ∨ Proceeds .crash) := fun h => h.elim proceeds_fail proceeds_crash
  have hok : ∀ a s', (((discipline Proceeds).same s s' ∧ keep a)
      ∨ ∃ c, next a c ∧ s.Committed Proceeds s' c true) → s'.OnDisk s'.memory
        ∧ s'.quarantined = s.quarantined ∧ ((s'.memory = s.memory ∧ keep a) ∨ next a s'.memory) := by
    rintro a s' (⟨⟨hsnapshot, hmemory, hquarantined⟩, hkeep⟩ | ⟨c, hnext, hcommitted⟩)
    · exact ⟨hmemory ▸ hdisk.congr hsnapshot, hquarantined.resolve_right hfault, .inl ⟨hmemory, hkeep⟩⟩
    · have hmemory : s'.memory = c := hcommitted.memory_eq
      refine ⟨?_, hcommitted.quarantined_eq.resolve_right hfault, .inr (hmemory ▸ hnext)⟩
      exact hmemory ▸ .snapshot c hcommitted.sound hcommitted.snapshot_eq
  refine Sat.mono h fun out s' => ?_
  rintro (⟨hs, hout⟩ | ⟨a, c, hnext, hout⟩)
  · cases out with
    | ok a => exact hok a s' (.inl ⟨hs, hout⟩)
    | error e => exact hout.2.resolve_left proceeds_fail
    | crashed => exact proceeds_crash hout
  · cases out with
    | ok b =>
      obtain ⟨rfl, hcommitted⟩ := hout
      exact hok b s' (.inr ⟨c, hnext, hcommitted⟩)
    | error e => exact absurd hout.2.2 proceeds_fail
    | crashed => exact proceeds_crash hout.2

end Mutates

/-- A planned catalog changes the link under one key. -/
structure Plans (c : LinkCatalog) (keyDigest : ReceiptKeyDigest) (next : LinkCatalog) : Prop where
  sound : next.Sound
  frame : ∀ d, d ≠ keyDigest → next.entries.lookup d = c.entries.lookup d

theorem check_unchecked {a : α} (t : LinkStore) (o : List Verdict) :
    (unchecked a : LinkM Unit) t o = ⟨.ok (), t, o⟩ := rfl

theorem check_requireReadback {entry : LinkEntry} {message : String}
    {t : LinkStore} (h : t.memory.entries.lookup keyDigest = some entry) (o : List Verdict) :
    requireReadback keyDigest entry message t o = ⟨.ok (), t, o⟩ := by
  have hok : refuseIf (t.memory.entries.lookup keyDigest ≠ some entry) (corrupt message)
      = .ok () := refuseIf_eq_ok.mpr (not_ne_iff.mpr h)
  change (lift (refuseIf (t.memory.entries.lookup keyDigest ≠ some entry) (.corrupt message)) :
    LinkM Unit) t o = _
  rw [hok]
  rfl

theorem mutate_mutates {keep : α → Prop}
    {plan : LinkCatalog → Except LinkStoreError (LinkCatalog × α)} {check : α → LinkM Unit}
    (hplan : ∀ next a, plan s.memory = .ok (next, a) → next.Sound
      ∧ ∀ t, t.memory = next → ∀ o, check a t o = ⟨.ok (), t, o⟩)
    (herror : ∀ e, plan s.memory = .error e → (discipline V).before e) :
    Mutates V (mutate keyDigest plan check) s keep (∀ planned, plan s.memory ≠ .ok planned)
      fun a next => plan s.memory = .ok (next, a) := by
  refine .look (looks_checkDeadline reports_discipline) fun _ _ => ?_
  refine .look (get ⟨(discipline V).same_refl s, rfl, rfl⟩) ?_
  rintro s rfl
  have hlift : (discipline V).Looks V (lift (plan s.memory)) s (fun planned => plan s.memory = .ok planned)
      (∀ planned, plan s.memory ≠ .ok planned) :=
    lift fun e he => ⟨herror e he, fun planned h => by
      rw [he] at h
      cases h⟩
  refine .look hlift ?_
  rintro ⟨next, a⟩ hplanned
  obtain ⟨hsound, hcheck⟩ := hplan next a hplanned
  refine (Mutates.committing hsound hcheck).mono (fun _ h => h) id ?_
  rintro b c ⟨rfl, rfl⟩
  exact hplanned

end Unica.Link
