import Unica.Receipt.Change

/-!
# The code that makes the changes

Each commit sequence of the store makes exactly its change: a success has made
it, a failure has either not begun it or left one of its directories with the
store latched, and a crash leaves one of its directories.
-/

namespace Unica.Receipt

open Lib Lib.Prog Disk World List Ends Quiet

variable {V : Verdict → Prop} {w w' : World}
variable {digest : ReceiptKeyDigest} {row : PersistedRow} {onVisible : World → World} {m : Ledger Unit}
  {Q : Unit → World → Prop}

/-- A step on the way to a file's rename: it looks, and cleans up where it fails. -/
theorem orCleanup_observes {area : StagingArea} {stuck : ReceiptLedgerError} {step : Ledger Unit}
    {P : Unit → Prop} (h : Observes Quiet V step w P) :
    Observes Quiet V (orCleanup area stuck step) w P := by
  refine bind (.reify h) fun r w₁ hr => ?_
  cases r with
  | ok u => exact pure hr
  | error e =>
    refine bind (.reify (Q := fun _ w' => Quiet w w') (E := fun _ w' => Quiet w w')
      (.attempt hr (fun _ => hr) fun _ => hr)) fun r' w₂ hr' => ?_
    cases r' with
    | ok u => exact modify_bind (.throw (Quiet.trans hr' (.restage w₂ area _)))
    | error e' => exact throw hr'

/-- A success has left one staging file more. -/
theorem stageFile_ends {area : StagingArea} {create persist : String}
    {unidentified : ReceiptLedgerError} {guarded : Ledger Unit → Ledger Unit}
    (hguarded : ∀ {w : World} {step : Ledger Unit}, Observes Quiet V step w (fun _ => True) →
      Observes Quiet V (guarded step) w fun _ => True) :
    Ends V (stageFile area create unidentified persist guarded) w
      (fun _ w' => w' = w.restage area (· + 1)) (fun _ w' => Quiet w w') (Quiet w) := by
  refine .look (io_observes _) (fun _ h => h) fun _ _ => ?_
  refine .modify_bind ?_
  have hquiet := restage w area (· + 1)
  refine .observe (P := fun _ => True) (.attempt (.refl _) trivial) (fun _ _ => ?_)
    (fun _ _ h => hquiet.trans h) fun _ h => hquiet.trans h
  refine .look (hguarded (io_observes _)) (fun _ h => hquiet.trans h) fun _ _ => ?_
  refine .mono (hguarded checkDeadline_observes) (fun _ _ h => h.1)
    (fun _ _ h => hquiet.trans h) fun _ h => hquiet.trans h

/-- The commit-uncertain error of a step after the rename is never a missed deadline. -/
theorem uncertain_observes {α : Type} {m : Ledger α} {P : α → Prop} (h : Observes Quiet V m w P) :
    Ends V (uncertain digest m) w (fun a w' => w' = w ∧ P a)
      (fun e w' => e ≠ .deadlineExceeded ∧ Quiet w w') (Quiet w) :=
  .mapError h fun _ _ hq => ⟨by simp, hq⟩

/-- Where a publication of the generation can stop. -/
def Renewing (n : Nat) (w w' : World) : Prop :=
  Quiet w w' ∨ Quiet (w.renewGeneration n) w' ∨ Quiet (w.renewGeneration n).retainGeneration w'

theorem Renewing.disk {n : Nat} (h : Renewing n w w') :
    w'.disk = w.disk ∨ w'.disk = w.disk.setGeneration n := by
  rcases h with h | h | h
  · exact .inl h.disk
  · exact .inr h.disk
  · exact .inr h.disk

theorem publishGeneration_ends {n : Nat} {digest : Option ReceiptKeyDigest} :
    Ends V (publishGeneration n digest) w (fun _ w' => w' = w.advanceGeneration n)
      (fun _ w' => Renewing n w w') (Renewing n w) := by
  refine .mapError ?_ fun _ _ h => h
  refine .look checkDeadline_observes (fun _ => .inl) fun _ _ => ?_
  refine .look verifyNamedAuthority_observes (fun _ => .inl) fun _ _ => ?_
  refine .bind (.mono (stageFile_ends orCleanup_observes) (fun _ _ h => h)
    (fun _ _ => .inl) fun _ => .inl) fun _ w₁ hstaged => ?_
  subst hstaged
  have hquiet := restage w .generation (· + 1)
  refine .look (orCleanup_observes (io_observes _)) (fun _ h => .inl (hquiet.trans h)) fun _ _ => ?_
  refine .modify_bind ?_
  refine .look (io_observes _) (fun _ h => .inr (.inl h)) fun _ _ => ?_
  refine .look (io_observes _) (fun _ h => .inr (.inl h)) fun _ _ => ?_
  refine .look (io_observes _) (fun _ h => .inr (.inl h)) fun _ _ => ?_
  refine .modify_bind ?_
  refine .look verifyNamedAuthority_observes (fun _ h => .inr (.inr h)) fun _ _ => ?_
  refine .look checkDeadline_observes (fun _ h => .inr (.inr h)) fun _ _ => ?_
  exact .modify rfl

/-- The directories between a visible row and its published generation. -/
def Counting (n : Nat) (shown d : Disk) : Prop := d = shown ∨ d = shown.setGeneration n

theorem publishGeneration_counts {n : Nat} {digest : Option ReceiptKeyDigest} :
    Ends V (latchCatalogResult (publishGeneration n digest)) w (fun _ w' => w' = w.advanceGeneration n)
      (fun _ w' => w'.unavailable = true ∧ Counting n w.disk w'.disk)
      (fun w' => Counting n w.disk w'.disk) :=
  .onError (.mono publishGeneration_ends (fun _ _ h => h) (fun _ _ h => h.disk) fun _ h => h.disk)
    fun _ _ h => ⟨rfl, h⟩

theorem confirmAuthority_ends : Ends V (confirmAuthority digest) w (fun _ w' => w' = w)
      (fun _ w' => w'.unavailable = true ∧ Quiet w w') (Quiet w) := by
  refine .onError (.mono (uncertain_observes (P := fun _ => True) ?_)
    (fun _ _ h => h.1) (fun _ _ h => h.2) fun _ h => h) fun _ w₁ h => ⟨rfl, h.trans (.latch w₁)⟩
  refine attempt_bind ?_
  exact verifyNamedAuthority_observes.mono fun _ _ => trivial

/-- A publication misses its deadline only before the rename. -/
theorem latchUnlessDeadline_ends {C : World → Prop} {D : Prop} {shown : World}
    (h : Ends V m w Q (fun e w' => Quiet w w' ∨ (e ≠ .deadlineExceeded ∧ D ∧ Quiet shown w')) C) :
    Ends V (latchUnlessDeadline m) w Q
      (fun _ w' => Quiet w w' ∨ (w'.unavailable = true ∧ D ∧ w'.disk = shown.disk)) C := by
  refine .onError h fun e w₁ he => ?_
  split
  case isTrue hdeadline =>
    rcases he with hq | ⟨hne, -, -⟩
    · exact .inl hq
    · exact absurd hdeadline hne
  case isFalse =>
    rcases he with hq | ⟨-, hd, hq⟩
    · exact .inl (hq.trans (.latch w₁))
    · exact .inr ⟨rfl, hd, hq.disk⟩

variable [ReceiptCodec]

/-- A row is not visible before the rename and is visible after it. -/
theorem publishRow_ends {persist : String} {rename : Ledger Unit} {P : Prop}
    (hrename : Observes Quiet V rename (w.restage .active (· + 1)) fun _ => P) :
    Ends V (publishRow persist rename digest row onVisible) w
      (fun _ w' => w' = onVisible (w.mapDisk (putRow digest row)) ∧ P)
      (fun e w' => Quiet w w' ∨ (e ≠ .deadlineExceeded ∧ P
        ∧ Quiet (onVisible (w.mapDisk (putRow digest row))) w'))
      (fun w' => Quiet w w' ∨ (P ∧ Quiet (onVisible (w.mapDisk (putRow digest row))) w')) := by
  refine .observe checkDeadline_observes (fun _ _ => ?_) (fun _ _ => .inl) fun _ => .inl
  refine .observe verifyNamedAuthority_observes (fun _ _ => ?_) (fun _ _ => .inl) fun _ => .inl
  refine .bind (.mono (stageFile_ends orCleanup_observes) (fun _ _ h => h)
    (fun _ _ => .inl) fun _ => .inl) fun _ w₁ hstaged => ?_
  subst hstaged
  have hquiet := restage w .active (· + 1)
  refine .observe (orCleanup_observes hrename) (fun _ hP => ?_)
    (fun _ _ h => .inl (hquiet.trans h)) fun _ h => .inl (hquiet.trans h)
  refine .modify_bind ?_
  refine .mono (uncertain_observes (P := fun _ => True) ?_) (fun _ _ h => ⟨h.1, hP⟩)
    (fun _ _ h => .inr ⟨h.1, hP, h.2⟩) fun _ h => .inr ⟨hP, h⟩
  refine attempt_bind ?_
  exact checkDeadline_observes

theorem publishNewRecord_ends : Ends V (publishNewRecord digest row onVisible) w
      (fun _ w' => w' = onVisible (w.mapDisk (putRow digest row))
        ∧ w.disk.rows.lookup digest = none)
      (fun e w' => Quiet w w' ∨ (e ≠ .deadlineExceeded ∧ w.disk.rows.lookup digest = none
        ∧ Quiet (onVisible (w.mapDisk (putRow digest row))) w'))
      (fun w' => Quiet w w' ∨ (w.disk.rows.lookup digest = none
        ∧ Quiet (onVisible (w.mapDisk (putRow digest row))) w')) := by
  refine publishRow_ends (.get_bind ?_)
  split
  case isTrue => exact .throw (.refl _)
  case isFalse h =>
    refine (io_observes _).mono fun _ _ => ?_
    exact Option.not_isSome_iff_eq_none.mp h

/-- A read-back fails only with the store latched. -/
theorem confirmCommittedRow_ends : Ends V (confirmCommittedRow digest row) w
      (fun _ w' => w' = w ∧ w.disk.rows.lookup digest = some row)
      (fun _ w' => Quiet w w' ∧ w'.unavailable = true) (Quiet w) := by
  have hlatch : ∀ {w₁ : World}, Quiet w w₁ → Ends V (latchCatalogError (.commitUncertain digest)) w₁
      (fun (_ : Unit) w' => w' = w ∧ w.disk.rows.lookup digest = some row)
      (fun _ w' => Quiet w w' ∧ w'.unavailable = true) (Quiet w) := fun {w₁} h =>
    .modify_bind (.throw ⟨h.trans (.latch w₁), rfl⟩)
  refine .bind (.reify
    (readActiveRecordBytes_observes digest)) fun r w₁ hr => ?_
  rcases r with e | (_ | committed)
  · exact hlatch hr
  · exact hlatch (hr.1 ▸ .refl w)
  · obtain ⟨rfl, hread⟩ := hr
    dsimp only
    split
    case isTrue heq => exact .pure ⟨rfl, heq ▸ hread.symm⟩
    case isFalse => exact hlatch (.refl _)

theorem settleRow_ends {r : EncodedRecord} :
    Ends V (settleRow r) w (fun _ w' => w' = w.advanceGeneration r.record.mutationSequence)
      (fun _ w' => w'.unavailable = true ∧ Counting r.record.mutationSequence w.disk w'.disk)
      (fun w' => Counting r.record.mutationSequence w.disk w'.disk) := by
  refine .bind publishGeneration_counts fun _ w₁ hw₁ => ?_
  subst hw₁
  exact .mono confirmCommittedRow_ends (fun _ _ h => h.1) (fun _ _ h => ⟨h.2, .inr h.1.disk⟩)
    fun _ h => .inr h.disk

namespace Change

variable {P : Change → Prop} {c : Change} {shown : World}

/-- A stage of a commit that stops only in one of the change's directories, the store latched. -/
theorem stage {D : Disk → Prop} (hP : P c) (hw : Enabled w c) (hD : ∀ d, D d → d ∈ cuts w c)
    (h : Ends V m shown Q (fun _ w' => w'.unavailable = true ∧ D w'.disk) fun w' => D w'.disk) :
    Ends V m shown Q
      (fun _ w' => Quiet w w' ∨ (w'.unavailable = true ∧ (Quiet w w' ∨ (protocol P).partway w w')))
      fun w' => Quiet w w' ∨ (protocol P).partway w w' :=
  .mono h (fun _ _ h => h) (fun _ _ h => .inr ⟨h.1, .inr ⟨c, hP, hw, hD _ h.2⟩⟩)
    fun _ h => .inr ⟨c, hP, hw, hD _ h⟩

/-- The first stage: the row becomes visible in `shown`, or nothing has changed. -/
theorem stage_publish {A : Prop} (hP : P c) (hw : A → Enabled w c) (hshown : shown.disk ∈ cuts w c)
    (hm : Ends V m w (fun _ w' => w' = shown ∧ A)
      (fun e w' => Quiet w w' ∨ (e ≠ .deadlineExceeded ∧ A ∧ Quiet shown w'))
      fun w' => Quiet w w' ∨ (A ∧ Quiet shown w')) :
    Ends V (latchUnlessDeadline m) w (fun _ w' => w' = shown ∧ A)
      (fun _ w' => Quiet w w' ∨ (w'.unavailable = true ∧ (Quiet w w' ∨ (protocol P).partway w w')))
      fun w' => Quiet w w' ∨ (protocol P).partway w w' := by
  refine .mono (latchUnlessDeadline_ends hm) (fun _ _ h => h) ?_ ?_
  · rintro e w' (hq | ⟨hlatched, ha, hd⟩)
    · exact .inl hq
    · exact .inr ⟨hlatched, .inr ⟨c, hP, hw ha, hd ▸ hshown⟩⟩
  · rintro w' (hq | ⟨ha, hq⟩)
    · exact .inl hq
    · exact .inr ⟨c, hP, hw ha, hq.disk ▸ hshown⟩

/-- A commit whose row is visible in `shown` and whose tail settles it. -/
theorem commits_write {origin : Option CatalogEntry} {r : EncodedRecord} {A : Prop}
    (hP : P (.write origin r)) (hw : A → Writable w origin r)
    (hshown : shown = (w.mapDisk (putRow r.record.keyDigest r.row)).mapCatalog (commitOrigin origin r))
    (hm : Ends V m w (fun _ w' => w' = shown ∧ A)
      (fun e w' => Quiet w w' ∨ (e ≠ .deadlineExceeded ∧ A ∧ Quiet shown w'))
      fun w' => Quiet w w' ∨ (A ∧ Quiet shown w')) :
    (protocol P).Commits V (do latchUnlessDeadline m; settleRow r) w
      fun _ w' => w' = apply w (.write origin r) := by
  subst hshown
  refine .bind (stage_publish hP hw mem_cons_self hm) ?_
  rintro _ _ ⟨rfl, ha⟩
  refine .mono (stage hP (hw ha) ?_ settleRow_ends) ?_ (fun _ _ h => h) fun _ h => h
  · rintro d (rfl | rfl)
    · exact mem_cons_self
    · exact mem_cons_of_mem _ mem_cons_self
  · rintro _ w' rfl
    exact ⟨⟨_, hP, hw ha, rfl⟩, rfl⟩

end Change

/-- Unlinking a witness: it is there or it is gone. -/
theorem removeExpiredDeletionWitness_ends : Ends V (removeExpiredDeletionWitness digest row) w
      (fun _ w' => w' = w.mapDisk (removeRow digest))
      (fun _ w' => w'.disk = w.disk ∨ w'.disk = w.disk.removeRow digest)
      (fun w' => w'.disk = w.disk ∨ w'.disk = w.disk.removeRow digest) := by
  refine .mapError ?_
    fun _ _ h => h
  refine .look checkDeadline_observes (fun _ h => .inl h.disk) fun _ _ => ?_
  refine .look verifyNamedAuthority_observes (fun _ h => .inl h.disk) fun _ _ => ?_
  refine .look (readActiveRecordBytes_observes digest) (fun _ h => .inl h.disk)
    fun committed _ => ?_
  have hunlink : Ends V (do
      checkDeadline
      verifyNamedAuthority
      io "remove receipt row"
      modify (mapDisk (removeRow digest))
      io "sync receipt row directory"
      checkDeadline
      verifyNamedAuthority) w (fun _ w' => w' = w.mapDisk (removeRow digest))
      (fun _ w' => w'.disk = w.disk ∨ w'.disk = w.disk.removeRow digest)
      (fun w' => w'.disk = w.disk ∨ w'.disk = w.disk.removeRow digest) := by
    refine .look checkDeadline_observes (fun _ h => .inl h.disk) fun _ _ => ?_
    refine .look verifyNamedAuthority_observes (fun _ h => .inl h.disk) fun _ _ => ?_
    refine .look (io_observes _) (fun _ h => .inl h.disk) fun _ _ => ?_
    refine .modify_bind ?_
    refine .look (io_observes _) (fun _ h => .inr h.disk) fun _ _ => ?_
    refine .look checkDeadline_observes (fun _ h => .inr h.disk) fun _ _ => ?_
    exact .mono verifyNamedAuthority_observes (fun _ _ h => h.1) (fun _ _ h => .inr h.disk)
      fun _ h => .inr h.disk
  split
  case isTrue => exact hunlink
  case isFalse => exact .throw (.inl rfl)

namespace Change

variable {P : Change → Prop}

theorem commitRemoval_commits {e : CatalogEntry} {witness : EncodedRecord}
    (hP : P (.remove e witness)) (hw : Removable w e witness) :
    (protocol P).Commits V (commitRemoval e witness) w
      fun _ w' => w' = apply w (.remove e witness) := by
  refine .bind (stage_publish hP (fun _ => hw) mem_cons_self (publishRow_ends (io_observes _))) ?_
  rintro _ _ ⟨rfl, -⟩
  refine .bind (stage hP hw ?_ publishGeneration_counts) ?_
  · rintro d (rfl | rfl)
    · exact mem_cons_self
    · exact mem_cons_of_mem _ mem_cons_self
  rintro _ _ rfl
  let counted := (w.disk.putRow e.record.keyDigest witness.row).setGeneration witness.record.mutationSequence
  let D (d : Disk) := d = counted ∨ d = counted.removeRow e.record.keyDigest
  refine .bind (stage (D := D) hP hw ?_ (.onError removeExpiredDeletionWitness_ends
    fun _ _ h => ⟨rfl, h⟩)) ?_
  · rintro d (rfl | rfl)
    · exact mem_cons_of_mem _ mem_cons_self
    · exact mem_cons_of_mem _ (mem_cons_of_mem _ mem_cons_self)
  rintro _ _ rfl
  refine .mono (stage (D := (· = counted.removeRow e.record.keyDigest)) hP hw ?_
    (.mono confirmAuthority_ends (fun _ _ h => h)
    (fun _ _ h => ⟨h.1, h.2.disk⟩) fun _ h => h.disk)) ?_ (fun _ _ h => h) fun _ h => h
  · rintro d rfl
    exact mem_cons_of_mem _ (mem_cons_of_mem _ mem_cons_self)
  · rintro _ _ rfl
    exact ⟨⟨_, hP, hw, rfl⟩, rfl⟩

end Change

end Unica.Receipt
