import Unica.Receipt.Observe
import Unica.Receipt.CatalogInvariant
import Unica.Lib.Protocol

/-!
# The durable changes of a receipt ledger

What a single-row operation does to a ledger is a sequence of three changes: a row
is written, a receipt is removed through a witness, or an envelope row gets a file
of its own. Each has a guard, the state it leads to, and the directories a crash in
its middle can leave.
-/

namespace Unica.Receipt

open Lib Lib.Prog

variable [ReceiptCodec]

namespace World

/-- The generation record is replaced and not yet retained. -/
def renewGeneration (n : Nat) (w : World) : World :=
  let w := w.mapDisk (Disk.setGeneration n)
  { w with store := { w.store with generationHandleCurrent := false } }

/-- A completed publication of the generation. -/
def advanceGeneration (n : Nat) (w : World) : World :=
  ((w.renewGeneration n).retainGeneration).raiseHighwater n

def dropBacking (digest : ReceiptKeyDigest) : World → World :=
  mapCatalog fun c => { c with batchBacking := c.batchBacking.erase digest }

section Fields

omit [ReceiptCodec]

variable (w : World) (f : Disk → Disk) (g : ReceiptCatalog → ReceiptCatalog) (n : Nat)

@[simp] theorem mapDisk_catalog : (w.mapDisk f).catalog = w.catalog := rfl
@[simp] theorem mapCatalog_catalog : (w.mapCatalog g).catalog = g w.catalog := rfl
@[simp] theorem advanceGeneration_catalog : (w.advanceGeneration n).catalog = w.catalog := rfl

end Fields

end World

def Disk.removeBatches (names : List BatchName) (d : Disk) : Disk :=
  names.foldl (fun d name => d.removeBatch name) d

inductive Change where
  | write (origin : Option CatalogEntry) (r : EncodedRecord)
  | remove (persisted : CatalogEntry) (witness : EncodedRecord)
  | materialize (r : EncodedRecord)

namespace Change

def commitOrigin (origin : Option CatalogEntry) (r : EncodedRecord) : ReceiptCatalog → ReceiptCatalog :=
  match origin with
  | none => fun c => commitCatalogInsert c r.entry
  | some _ => fun c => commitCatalogReplace c r.entry

def apply (w : World) : Change → World
  | write origin r =>
      ((w.mapDisk (Disk.putRow r.record.keyDigest r.row)).mapCatalog
        (commitOrigin origin r)).advanceGeneration r.record.mutationSequence
  | remove persisted witness =>
      (((w.mapDisk (Disk.putRow persisted.record.keyDigest witness.row)).mapCatalog
        fun c => commitCatalogRemove c persisted).advanceGeneration
          witness.record.mutationSequence).mapDisk (Disk.removeRow persisted.record.keyDigest)
  | materialize r => (w.mapDisk (Disk.putRow r.record.keyDigest r.row)).dropBacking r.record.keyDigest

/-- The directories an unfinished change can leave. -/
def cuts (w : World) : Change → List Disk
  | write _ r =>
      let shown := w.disk.putRow r.record.keyDigest r.row
      [shown, shown.setGeneration r.record.mutationSequence]
  | remove persisted witness =>
      let shown := w.disk.putRow persisted.record.keyDigest witness.row
      let counted := shown.setGeneration witness.record.mutationSequence
      [shown, counted, counted.removeRow persisted.record.keyDigest]
  | materialize r => [w.disk.putRow r.record.keyDigest r.row]

/-- An envelope row that is written to a file of its own. -/
structure Materializable (w : World) (r : EncodedRecord) : Prop where
  free : w.unavailable = false
  absent : w.disk.rows.lookup r.record.keyDigest = none
  backed : ∃ name envelope rows, w.catalog.batchBacking.lookup r.record.keyDigest = some name
    ∧ w.disk.batches.lookup name = some envelope ∧ decodeReceiptBatch envelope = .ok rows ∧ r ∈ rows
  catalogued : ∃ stored, w.catalog.records.lookup r.record.keyDigest = some stored
    ∧ r.entry.same stored

/-- The catalog knows the origin of a row, or knows no receipt under its digest. -/
def OriginHolds (c : ReceiptCatalog) (origin : Option CatalogEntry) (r : EncodedRecord) : Prop :=
  match origin with
  | none => c.records.lookup r.record.keyDigest = none
  | some e => c.holds r.record.keyDigest e = true ∧ r.record.key = e.record.key
      ∧ r.record.keyDigest = e.record.keyDigest

/-- The guard of a written row. -/
structure Writable (w : World) (origin : Option CatalogEntry) (r : EncodedRecord) : Prop where
  free : w.unavailable = false
  ticks : w.Ticks r.record.mutationSequence
  known : OriginHolds w.catalog origin r
  keyed : origin = none → r.record.keyDigest = receiptKeyDigest r.record.key
  absent : origin = none → w.disk.rows.lookup r.record.keyDigest = none
  accepted : match origin with
    | none => validateCatalogInsert w.catalog r.entry false = .ok ()
    | some e => validateCatalogReplace w.catalog e r.entry = .ok ()

structure Removable (w : World) (persisted : CatalogEntry) (witness : EncodedRecord) : Prop where
  free : w.unavailable = false
  ticks : w.Ticks witness.record.mutationSequence
  accepted : validateCatalogRemove w.catalog persisted = .ok ()
  key_eq : witness.record.key = persisted.record.key
  digest_eq : witness.record.keyDigest = persisted.record.keyDigest

/-- The guard of each change. -/
def Enabled (w : World) : Change → Prop
  | write origin r => Writable w origin r
  | remove persisted witness => Removable w persisted witness
  | materialize r => Materializable w r

/-- The protocol of the ledger: `P` are the changes an operation may make. -/
def protocol (P : Change → Prop) : Protocol World where
  quiet := Quiet
  change w w' := ∃ c, P c ∧ Enabled w c ∧ w' = apply w c
  partway w w' := ∃ c, P c ∧ Enabled w c ∧ w'.disk ∈ cuts w c
  stopped w := w.unavailable = true

theorem protocol_extends {P P' : Change → Prop} (h : ∀ c, P c → P' c) :
    (protocol P).Extends (protocol P') where
  quiet _ _ hq := hq
  change := fun _ _ ⟨c, hc, hchange⟩ => ⟨c, h c hc, hchange⟩
  partway := fun _ _ ⟨c, hc, hcut⟩ => ⟨c, h c hc, hcut⟩
  stopped _ hs := hs

section Components

variable (w : World)

@[simp] theorem write_catalog (origin : Option CatalogEntry) (r : EncodedRecord) :
    (apply w (.write origin r)).catalog = commitOrigin origin r w.catalog := rfl

@[simp] theorem remove_disk (e : CatalogEntry) (witness : EncodedRecord) :
    (apply w (.remove e witness)).disk
      = ((w.disk.putRow e.record.keyDigest witness.row).setGeneration
          witness.record.mutationSequence).removeRow e.record.keyDigest := rfl

@[simp] theorem remove_catalog (e : CatalogEntry) (witness : EncodedRecord) :
    (apply w (.remove e witness)).catalog = commitCatalogRemove w.catalog e := by
  simp [apply]

@[simp] theorem materialize_catalog (r : EncodedRecord) : (apply w (.materialize r)).catalog
      = { w.catalog with batchBacking := w.catalog.batchBacking.erase r.record.keyDigest } := rfl

end Components

end Change

section CatalogAfterCommit

variable {c : ReceiptCatalog} {r p : CatalogEntry}

omit [ReceiptCodec] in
theorem commitCatalogReplace_records (h : c.records.lookup r.record.keyDigest = some p) :
    (commitCatalogReplace c r).records = c.records.insert r.record.keyDigest r.withoutResultBody := by
  simp only [commitCatalogReplace, CatalogEntry.withoutResultBody_keyDigest, h]
  split <;> rfl

theorem commitOrigin_rest (origin : Option CatalogEntry) (r : EncodedRecord) (c : ReceiptCatalog) :
    (Change.commitOrigin origin r c).batchBacking = c.batchBacking
      ∧ (Change.commitOrigin origin r c).tombstoneCompactionBacking = c.tombstoneCompactionBacking
      ∧ (Change.commitOrigin origin r c).unavailable = c.unavailable := by
  cases origin with
  | none => exact ⟨rfl, rfl, rfl⟩
  | some e =>
    unfold Change.commitOrigin commitCatalogReplace
    dsimp only
    split
    · exact ⟨rfl, rfl, rfl⟩
    · split <;> exact ⟨rfl, rfl, rfl⟩

theorem commitOrigin_records {origin : Option CatalogEntry} {r : EncodedRecord} {c : ReceiptCatalog}
    (h : Change.OriginHolds c origin r) :
    (Change.commitOrigin origin r c).records
      = c.records.insert r.record.keyDigest r.entry.withoutResultBody := by
  cases origin with
  | none => rfl
  | some e =>
    obtain ⟨stored, hstored, -⟩ := ReceiptCatalog.holds_iff.mp h.1
    exact commitCatalogReplace_records hstored

end CatalogAfterCommit

namespace Change

variable {w : World}

/-- No change latches the store. -/
theorem unavailable_apply {c : Change} (h : Enabled w c) : (apply w c).unavailable = w.unavailable := by
  change (apply w c).catalog.unavailable = w.catalog.unavailable
  cases c with
  | write origin r =>
    exact (commitOrigin_rest origin r w.catalog).2.2
  | remove e witness => rw [remove_catalog, commitCatalogRemove]
  | materialize r => rfl

theorem follows_free {P : Change → Prop} {w' : World} (h : (protocol P).Follows w w')
    (hw : w.unavailable = false) : w'.unavailable = false := by
  induction h with
  | refl => exact hw
  | tail _ hlast ih =>
    obtain ⟨c, -, henabled, rfl⟩ := hlast
    exact (unavailable_apply henabled).trans ih

end Change

end Unica.Receipt
