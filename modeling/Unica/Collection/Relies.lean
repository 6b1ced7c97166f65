import Unica.Collection.Programs
import Mathlib.Order.Basic

/-!
# What the processes of a state root rely on

A directory that has left its name never returns to it, and none leaves its name while another
process holds one of its locks. Nothing but a change made by a process of its build removes or
dates back a child of a directory under its name.
-/

namespace Unica.Collection

open Lib Directory List Function Root Option AList

variable {name : Name}

namespace Root

/-- The directory stands under the name it was made with. -/
def AtHome (root : Root) (id : Nat) : Prop :=
  root.names (root.directories id).born = some (.directory id)

/-- The process holds a lock of the directory. -/
def Guards (root : Root) (pid id : Nat) : Prop :=
  root.spawnLock id = some pid ∨ ∃ authority time,
    (root.directories id).authority = some (authority, time) ∧
      root.authorityLock authority = some pid

variable {root : Root}

theorem setName_self {entry : Option Entry} : (root.setName name entry).names name = entry := update_self ..

theorem setName_of_ne {name n : Name} {entry : Option Entry} (h : n ≠ name) :
    (root.setName name entry).names n = root.names n := update_of_ne h ..

theorem setDirectory_cases (root : Root) (id : Nat) (directory : Directory) (other : Nat) :
    other = id ∧ (root.setDirectory id directory).directories other = directory ∨
      (root.setDirectory id directory).directories other = root.directories other := by
  by_cases heq : other = id
  · rw [heq]
    exact .inl ⟨rfl, update_self ..⟩
  · exact .inr (update_of_ne heq ..)

section

variable (root) {id : Nat} {directory : Directory}
  (hborn : directory.born = (root.directories id).born) (other : Nat)
include hborn

theorem setDirectory_born :
    ((root.setDirectory id directory).directories other).born = (root.directories other).born := by
  rcases root.setDirectory_cases id directory other with ⟨rfl, hself⟩ | hother
  · rw [hself, hborn]
  · rw [hother]

theorem setDirectory_atHome : (root.setDirectory id directory).AtHome other ↔ root.AtHome other := by
  rw [AtHome, root.setDirectory_born hborn]
  rfl

end

end Root

/-- The times of a directory and its children tell of every write they can show. -/
def Directory.Tells (directory : Directory) : Prop :=
  ∀ w ∈ directory.writes, w.shown = true → w.time ≤ directory.modified ∨
    ∃ child time, directory.childTime child = some time ∧ w.time ≤ time

structure Inv (root : Root) : Prop where
  allocated : ∀ name id, root.names name = some (.directory id) → id < root.nextDirectory
  unique : ∀ name name' id, root.names name = some (.directory id) →
    root.names name' = some (.directory id) → name = name'
  named : ∀ name id, root.names name = some (.directory id) → ¬ IsTrash name →
    (root.directories id).born = name
  born : ∀ id, id < root.nextDirectory → ¬ IsTrash (root.directories id).born
  authorities : ∀ id authority time, (root.directories id).authority = some (authority, time) →
    authority < root.nextAuthority
  numbers : ∀ id, ∀ w ∈ (root.directories id).writes, w.number < root.writeCount
  times : ∀ id, ∀ w ∈ (root.directories id).writes, w.time ≤ root.clock
  tells : ∀ id, root.AtHome id → (root.directories id).Tells
  sampled : ∀ pid, root.sampledAt pid ≤ root.writeCount

/-- What the other processes may do between two calls of a process. -/
structure Rely (pid : Nat) (s s' : Root) : Prop where
  spawn : ∀ id, s'.spawnLock id = some pid ↔ s.spawnLock id = some pid
  authority : ∀ id, s'.authorityLock id = some pid ↔ s.authorityLock id = some pid
  sampled : s'.sampledAt pid = s.sampledAt pid
  nextDirectory : s.nextDirectory ≤ s'.nextDirectory
  nextAuthority : s.nextAuthority ≤ s'.nextAuthority
  writeCount : s.writeCount ≤ s'.writeCount
  born : ∀ id, id < s.nextDirectory → (s'.directories id).born = (s.directories id).born
  home : ∀ id, id < s.nextDirectory → s'.AtHome id → s.AtHome id
  guarded : ∀ id, id < s.nextDirectory → s.AtHome id → s.Guards pid id → s'.AtHome id
  child : ∀ id, id < s.nextDirectory → s'.AtHome id → ∀ found,
    (s.directories id).authority = some found → (s'.directories id).authority = some found
  back : ∀ id authority time, authority < s.nextAuthority →
    (s'.directories id).authority = some (authority, time) →
      (s.directories id).authority = some (authority, time)
  writes : ∀ id, id < s.nextDirectory → s'.AtHome id → ∃ more,
    (s'.directories id).writes = (s.directories id).writes ++ more ∧
      ∀ w ∈ more, s.writeCount ≤ w.number
  fresh : ∀ id, s.nextDirectory ≤ id → id < s'.nextDirectory → s'.AtHome id →
    ∀ w ∈ (s'.directories id).writes, s.writeCount ≤ w.number
  times : ∀ id, id < s.nextDirectory → s'.AtHome id →
    (s'.directories id).writes = (s.directories id).writes → ∀ child time,
      (s.directories id).childTime child = some time →
        (s'.directories id).childTime child = some time

variable {spawnLock authorityLock : Nat → Option Nat} {names : Name → Option Entry} {sampledAt : Nat → Nat}

namespace Rely

variable {pid : Nat} {s t u : Root}

/-- Only locks of others, their samplings or the clock changed. -/
theorem of_same {clock : Time} (hsampled : sampledAt pid = s.sampledAt pid)
    (hspawn : ∀ id, spawnLock id = some pid ↔ s.spawnLock id = some pid)
    (hlock : ∀ id, authorityLock id = some pid ↔ s.authorityLock id = some pid) :
    Rely pid s { s with spawnLock, authorityLock, sampledAt, clock } where
  spawn := hspawn
  authority := hlock
  sampled := hsampled
  nextDirectory := le_rfl
  nextAuthority := le_rfl
  writeCount := le_rfl
  born _ _ := rfl
  home _ _ hhome := hhome
  guarded _ _ hhome _ := hhome
  child _ _ _ _ hfound := hfound
  back _ _ _ _ hfound := hfound
  writes _ _ _ := ⟨[], by simp⟩
  fresh id hle hlt := (Nat.not_lt_of_le hle hlt).elim
  times _ _ _ _ _ _ htime := htime

theorem refl : Rely pid s s := of_same rfl (fun _ => Iff.rfl) fun _ => Iff.rfl

theorem guards (h : Rely pid s t) {id : Nat} (hid : id < s.nextDirectory) (hhome : t.AtHome id)
    (hguards : s.Guards pid id) : t.Guards pid id := by
  rcases hguards with hspawn | ⟨authority, time, hchild, hlock⟩
  · exact .inl ((h.spawn id).mpr hspawn)
  · exact .inr ⟨authority, time, h.child id hid hhome _ hchild, (h.authority authority).mpr hlock⟩

theorem trans (h : Rely pid s t) (h' : Rely pid t u) : Rely pid s u where
  spawn id := (h'.spawn id).trans (h.spawn id)
  authority id := (h'.authority id).trans (h.authority id)
  sampled := h'.sampled.trans h.sampled
  nextDirectory := h.nextDirectory.trans h'.nextDirectory
  nextAuthority := h.nextAuthority.trans h'.nextAuthority
  writeCount := h.writeCount.trans h'.writeCount
  born id hid := (h'.born id (hid.trans_le h.nextDirectory)).trans (h.born id hid)
  home id hid hhome := h.home id hid (h'.home id (hid.trans_le h.nextDirectory) hhome)
  guarded id hid hhome hguards := by
    have hmid := h.guarded id hid hhome hguards
    exact h'.guarded id (hid.trans_le h.nextDirectory) hmid (h.guards hid hmid hguards)
  child id hid hhome found hfound := by
    have hid' := hid.trans_le h.nextDirectory
    exact h'.child id hid' hhome found (h.child id hid (h'.home id hid' hhome) found hfound)
  back id authority time hlt hfound :=
    h.back id authority time hlt (h'.back id authority time (hlt.trans_le h.nextAuthority) hfound)
  writes id hid hhome := by
    have hid' := hid.trans_le h.nextDirectory
    obtain ⟨more, hmore, hnumbers⟩ := h.writes id hid (h'.home id hid' hhome)
    obtain ⟨more', hmore', hnumbers'⟩ := h'.writes id hid' hhome
    refine ⟨more ++ more', by rw [hmore', hmore, append_assoc], fun w hw => ?_⟩
    rcases mem_append.mp hw with hw | hw
    · exact hnumbers w hw
    · exact h.writeCount.trans (hnumbers' w hw)
  fresh id hold hnew hhome w hw := by
    by_cases hid : id < t.nextDirectory
    · obtain ⟨more, hmore, hnumbers⟩ := h'.writes id hid hhome
      rw [hmore] at hw
      rcases mem_append.mp hw with hw | hw
      · exact h.fresh id hold hid (h'.home id hid hhome) w hw
      · exact h.writeCount.trans (hnumbers w hw)
    · exact h.writeCount.trans (h'.fresh id (Nat.le_of_not_lt hid) hnew hhome w hw)
  times id hid hhome hsame child time htime := by
    have hid' := hid.trans_le h.nextDirectory
    have hmid := h'.home id hid' hhome
    obtain ⟨more, hmore, -⟩ := h.writes id hid hmid
    obtain ⟨more', hmore', -⟩ := h'.writes id hid' hhome
    -- Writes are only appended, so that none was made on either side.
    rw [hmore', hmore, append_assoc, append_right_eq_self, append_eq_nil_iff] at hsame
    rw [hsame.1, append_nil] at hmore
    rw [hsame.2, append_nil] at hmore'
    exact h'.times id hid' hhome hmore' child time (h.times id hid hmid hmore child time htime)

/-- One directory changed within what others may do. -/
theorem of_directory {id nextAuthority writeCount : Nat} {directory : Directory}
    (hborn : directory.born = (s.directories id).born) (hnext : s.nextAuthority ≤ nextAuthority)
    (hcount : s.writeCount ≤ writeCount)
    (hchild : s.AtHome id → ∀ found, (s.directories id).authority = some found →
      directory.authority = some found) (hback : ∀ authority time, authority < s.nextAuthority →
      directory.authority = some (authority, time) →
        (s.directories id).authority = some (authority, time))
    (hwrites : s.AtHome id → ∃ more, directory.writes = (s.directories id).writes ++ more ∧
      ∀ w ∈ more, s.writeCount ≤ w.number)
    (htimes : s.AtHome id → directory.writes = (s.directories id).writes → ∀ child time,
      (s.directories id).childTime child = some time → directory.childTime child = some time) :
    Rely pid s { s.setDirectory id directory with nextAuthority, writeCount } where
  spawn := fun _ => Iff.rfl
  authority := fun _ => Iff.rfl
  sampled := rfl
  nextDirectory := le_rfl
  nextAuthority := hnext
  writeCount := hcount
  born := fun other _ => s.setDirectory_born hborn other
  home := fun other _ => (s.setDirectory_atHome hborn other).mp
  guarded := fun other _ h _ => (s.setDirectory_atHome hborn other).mpr h
  fresh := fun other hle hlt => (Nat.not_lt_of_le hle hlt).elim
  child := by
    intro other _ h
    have hhome := (s.setDirectory_atHome hborn other).mp h
    rcases s.setDirectory_cases id directory other with ⟨rfl, hself⟩ | hother
    · rw [hself]
      exact hchild hhome
    · rw [hother]
      exact fun _ hfound => hfound
  back := by
    intro other
    rcases s.setDirectory_cases id directory other with ⟨rfl, hself⟩ | hother
    · rw [hself]
      exact hback
    · rw [hother]
      exact fun _ _ _ hfound => hfound
  writes := by
    intro other _ h
    have hhome := (s.setDirectory_atHome hborn other).mp h
    rcases s.setDirectory_cases id directory other with ⟨rfl, hself⟩ | hother
    · rw [hself]
      exact hwrites hhome
    · exact ⟨[], by simp [hother]⟩
  times := by
    intro other _ h
    have hhome := (s.setDirectory_atHome hborn other).mp h
    rcases s.setDirectory_cases id directory other with ⟨rfl, hself⟩ | hother
    · rw [hself]
      exact htimes hhome
    · rw [hother]
      exact fun _ _ _ htime => htime

end Rely

/-! ## One call -/

namespace Directory

variable {directory : Directory} {number : Nat} {clock : Time} {change : Change}

@[simp] theorem apply_born : (directory.apply number clock change).born = directory.born := by
  cases change with
  | modify child =>
    simp only [apply]
    split <;> rfl
  | _ => rfl

@[simp] theorem apply_authority :
    (directory.apply number clock change).authority = directory.authority := by
  cases change with
  | modify child =>
    simp only [apply]
    split <;> rfl
  | _ => rfl

/-- A change is recorded, or nothing changed at all. -/
theorem apply_writes (directory : Directory) (number : Nat) (clock : Time) (change : Change) :
    directory.apply number clock change = directory ∨
    ∃ shown, (directory.apply number clock change).writes =
      directory.writes ++ [⟨number, clock, shown⟩] := by
  cases change with
  | publish | unlink => exact .inr ⟨true, rfl⟩
  | deep => exact .inr ⟨false, rfl⟩
  | modify child =>
    simp only [apply]
    split
    · exact .inr ⟨true, rfl⟩
    · exact .inl rfl

/-- A write with the latest time so far, where the directory or a child now has that time. -/
theorem tells_record (hold : ∀ w ∈ directory.writes, w.time ≤ clock)
    (hclock : directory.modified = clock) : (directory.record number clock true).Tells := by
  intro w hw _
  left
  rw [show (directory.record number clock true).modified = clock from hclock]
  rcases mem_append.mp hw with hw | hw
  · exact hold w hw
  · rw [mem_singleton.mp hw]

theorem Tells.modify (h : directory.Tells) (hold : ∀ w ∈ directory.writes, w.time ≤ clock)
    (child : String) : (record { directory with children := directory.children.insert child clock }
      number clock true).Tells := by
  have hchild : childTime (record { directory with
      children := directory.children.insert child clock } number clock true) (.other child) =
        some clock := lookup_insert _
  intro w hw hshown
  rcases mem_append.mp hw with hw | hw
  · rcases h w hw hshown with hmodified | ⟨found, time, htime, hle⟩
    · exact .inl hmodified
    · by_cases heq : found = .other child
      · exact .inr ⟨.other child, clock, hchild, hold w hw⟩
      · refine .inr ⟨found, time, ?_, hle⟩
        cases found with
        | authority => exact htime
        | other name =>
          have hne : name ≠ child := fun hsame => heq (congrArg _ hsame)
          exact (lookup_insert_ne hne).trans htime
  · rw [mem_singleton.mp hw]
    exact .inr ⟨.other child, clock, hchild, le_rfl⟩

theorem Tells.apply (h : directory.Tells) (hold : ∀ w ∈ directory.writes, w.time ≤ clock) :
    (directory.apply number clock change).Tells := by
  cases change with
  | publish | unlink => exact tells_record hold rfl
  | modify child =>
    simp only [apply]
    split
    · exact h.modify hold child
    · exact h
  | deep =>
    intro w hw hshown
    rcases mem_append.mp hw with hw | hw
    · exact h w hw hshown
    · rw [mem_singleton.mp hw] at hshown
      cases hshown

end Directory

namespace Inv

variable {s : Root}
variable {id : Nat} {name : Name}

theorem of_same (h : Inv s)
    {clock : Time} (hclock : s.clock ≤ clock) (hsampled : ∀ pid, sampledAt pid ≤ s.writeCount) :
    Inv { s with spawnLock, authorityLock, sampledAt, clock } :=
  { h with
    times := fun id w hw => (h.times id w hw).trans hclock
    sampled := hsampled }

/-- Where a directory stands under some name that is no trash, it is at home. -/
theorem atHome (h : Inv s) (hname : s.names name = some (.directory id))
    (htrash : ¬ IsTrash name) : s.AtHome id := by
  rw [AtHome, h.named name id hname htrash]
  exact hname

theorem lt_of_atHome (h : Inv s) (hhome : s.AtHome id) : id < s.nextDirectory :=
  h.allocated _ id hhome

theorem of_directory (h : Inv s) {nextAuthority writeCount : Nat} {directory : Directory}
    (hborn : directory.born = (s.directories id).born) (hnext : s.nextAuthority ≤ nextAuthority)
    (hcount : s.writeCount ≤ writeCount)
    (hauthority : ∀ authority time, directory.authority = some (authority, time) →
      authority < nextAuthority)
    (hwrites : ∀ w ∈ directory.writes, w.number < writeCount ∧ w.time ≤ s.clock)
    (htells : s.AtHome id → directory.Tells) :
    Inv { s.setDirectory id directory with nextAuthority, writeCount } where
  allocated := h.allocated
  unique := h.unique
  named := by
    intro name other hname htrash
    exact (s.setDirectory_born hborn other).trans (h.named name other hname htrash)
  born := by
    intro other hlt
    have hbirth := s.setDirectory_born hborn other
    exact hbirth ▸ h.born other hlt
  authorities := by
    intro other
    rcases s.setDirectory_cases id directory other with ⟨rfl, hself⟩ | hother
    · rw [hself]
      exact hauthority
    · rw [hother]
      exact fun authority time hfound => (h.authorities other authority time hfound).trans_le hnext
  numbers := by
    intro other
    rcases s.setDirectory_cases id directory other with ⟨rfl, hself⟩ | hother
    · rw [hself]
      exact fun w hw => (hwrites w hw).1
    · rw [hother]
      exact fun w hw => (h.numbers other w hw).trans_le hcount
  times := by
    intro other
    rcases s.setDirectory_cases id directory other with ⟨rfl, hself⟩ | hother
    · rw [hself]
      exact fun w hw => (hwrites w hw).2
    · rw [hother]
      exact h.times other
  tells := by
    intro other hat
    have hhome := (s.setDirectory_atHome hborn other).mp hat
    rcases s.setDirectory_cases id directory other with ⟨rfl, hself⟩ | hother
    · rw [hself]
      exact htells hhome
    · rw [hother]
      exact h.tells other hhome
  sampled := fun pid => (h.sampled pid).trans hcount

theorem put (h : Inv s) (id : Nat) (change : Change) : Inv (s.put id change) := by
  refine h.of_directory (by simp) le_rfl (Nat.le_succ _) (fun authority time => ?_)
    (fun w hw => ?_) fun hhome => (h.tells id hhome).apply (h.times id)
  · rw [apply_authority]
    exact h.authorities id authority time
  · have hold (hw : w ∈ (s.directories id).writes) : w.number < s.writeCount + 1 ∧ w.time ≤ s.clock :=
      ⟨Nat.lt_succ_of_lt (h.numbers id w hw), h.times id w hw⟩
    rcases (s.directories id).apply_writes s.writeCount s.clock change with hsame | ⟨shown, hmore⟩
    · rw [hsame] at hw
      exact hold hw
    · rw [hmore] at hw
      rcases mem_append.mp hw with hw | hw
      · exact hold hw
      · rw [mem_singleton.mp hw]
        exact ⟨Nat.lt_succ_self _, le_rfl⟩

theorem makeAuthority (h : Inv s) (id : Nat) : Inv (s.makeAuthority id) := by
  refine h.of_directory rfl (Nat.le_succ _) le_rfl (fun authority time heq => ?_)
    (fun w hw => ⟨h.numbers id w hw, h.times id w hw⟩) fun _ w hw _ => .inl (h.times id w hw)
  cases heq
  exact Nat.lt_succ_self _

theorem strip (h : Inv s) (hhome : ¬ s.AtHome id) (child : Child) :
    Inv (s.setDirectory id (stripped (s.directories id) s.clock child)) := by
  have hwrites : (stripped (s.directories id) s.clock child).writes =
      (s.directories id).writes := by
    cases child <;> rfl
  refine h.of_directory (by cases child <;> rfl) le_rfl le_rfl (fun authority time heq => ?_)
    (fun w hw => ?_) fun hat => (hhome hat).elim
  · cases child with
    | authority => cases heq
    | other name => exact h.authorities id authority time heq
  · rw [hwrites] at hw
    exact ⟨h.numbers id w hw, h.times id w hw⟩

theorem makeChild (h : Inv s) (htrash : ¬ IsTrash name) : Inv (s.makeChild name) := by
  have hnames (n : Name) (id : Nat) (hn : (s.makeChild name).names n = some (.directory id)) :
      (n = name ∧ id = s.nextDirectory) ∨
        (n ≠ name ∧ s.names n = some (.directory id) ∧ id ≠ s.nextDirectory) := by
    by_cases heq : n = name
    · rw [heq, show (s.makeChild name).names name = some (.directory s.nextDirectory) from
        update_self ..] at hn
      cases hn
      exact .inl ⟨heq, rfl⟩
    · rw [show (s.makeChild name).names n = s.names n from update_of_ne heq ..] at hn
      exact .inr ⟨heq, hn, (h.allocated n id hn).ne⟩
  have hnew : (s.makeChild name).directories s.nextDirectory =
      { born := name, modified := s.clock } := update_self ..
  have hold (id : Nat) (hne : id ≠ s.nextDirectory) :
      (s.makeChild name).directories id = s.directories id := update_of_ne hne ..
  constructor
  case allocated =>
    intro n id hn
    rcases hnames n id hn with ⟨-, heq⟩ | ⟨-, hn, -⟩
    · rw [heq]
      exact Nat.lt_succ_self _
    · exact Nat.lt_succ_of_lt (h.allocated n id hn)
  case unique =>
    intro n n' id hn hn'
    rcases hnames n id hn with ⟨heq, hid⟩ | ⟨-, hn, hne⟩ <;>
      rcases hnames n' id hn' with ⟨heq', hid'⟩ | ⟨-, hn', hne'⟩
    · rw [heq, heq']
    · exact (hne' hid).elim
    · exact (hne hid').elim
    · exact h.unique n n' id hn hn'
  case named =>
    intro n id hn hn'
    rcases hnames n id hn with ⟨heq, hid⟩ | ⟨-, hn, hne⟩
    · rw [hid, hnew, heq]
    · rw [hold id hne]
      exact h.named n id hn hn'
  case born =>
    intro id hlt
    by_cases heq : id = s.nextDirectory
    · rw [heq, hnew]
      exact htrash
    · rw [hold id heq]
      exact h.born id (Nat.lt_of_le_of_ne (Nat.le_of_lt_succ hlt) heq)
  case authorities =>
    intro id authority time hfound
    by_cases heq : id = s.nextDirectory
    · rw [heq, hnew] at hfound
      cases hfound
    · rw [hold id heq] at hfound
      exact h.authorities id authority time hfound
  case numbers =>
    intro id w hw
    by_cases heq : id = s.nextDirectory
    · rw [heq, hnew] at hw
      cases hw
    · rw [hold id heq] at hw
      exact h.numbers id w hw
  case times =>
    intro id w hw
    by_cases heq : id = s.nextDirectory
    · rw [heq, hnew] at hw
      cases hw
    · rw [hold id heq] at hw
      exact h.times id w hw
  case tells =>
    intro id hhome
    by_cases heq : id = s.nextDirectory
    · rw [heq, hnew]
      intro w hw
      cases hw
    · rw [AtHome, hold id heq] at hhome
      rcases hnames _ id hhome with ⟨-, hid⟩ | ⟨-, hn, -⟩
      · exact (heq hid).elim
      · rw [hold id heq]
        exact h.tells id hn
  case sampled => exact h.sampled

/-- Names are lost, or pass to trash. -/
theorem of_names (h : Inv s) (hnames : ∀ name id, names name = some (.directory id) →
      ∃ source, s.names source = some (.directory id) ∧ (IsTrash name ∨ name = source))
    (hunique : ∀ name name' id, names name = some (.directory id) →
      names name' = some (.directory id) → name = name') : Inv { s with names := names } where
  __ := h
  allocated := by
    intro name id hname
    obtain ⟨source, hsource, -⟩ := hnames name id hname
    exact h.allocated source id hsource
  unique := hunique
  named := by
    intro name id hname htrash
    obtain ⟨source, hsource, hcase⟩ := hnames name id hname
    rcases hcase with htrash' | heq
    · exact (htrash htrash').elim
    · rw [heq]
      exact h.named source id hsource (heq ▸ htrash)
  tells := by
    intro id hhome
    obtain ⟨source, hsource, hcase⟩ := hnames _ id hhome
    have hborn := h.born id (h.allocated source id hsource)
    rcases hcase with htrash | heq
    · exact (hborn htrash).elim
    · refine h.tells id ?_
      rw [AtHome, heq]
      exact hsource

theorem forget (h : Inv s) (name : Name) : Inv (s.setName name none) := by
  have hnames (n : Name) (id : Nat) (hn : update s.names name none n = some (.directory id)) :
      s.names n = some (.directory id) := by
    by_cases heq : n = name
    · rw [heq, update_self] at hn
      cases hn
    · rw [update_of_ne heq] at hn
      exact hn
  exact h.of_names (fun n id hn => ⟨n, hnames n id hn, .inr rfl⟩) fun n n' id hn hn' =>
    h.unique n n' id (hnames n id hn) (hnames n' id hn')

theorem rename (h : Inv s) {source target : Name} {entry : Entry}
    (hsource : s.names source = some entry) (htrash : IsTrash target) :
    Inv ((s.setName source none).setName target (some entry)) := by
  have hnames (n : Name) (id : Nat)
      (hn : update (update s.names source none) target (some entry) n = some (.directory id)) :
      (n = target ∧ s.names source = some (.directory id)) ∨
        (n ≠ source ∧ s.names n = some (.directory id)) := by
    by_cases heq : n = target
    · rw [heq, update_self] at hn
      exact .inl ⟨heq, hsource.trans hn⟩
    · rw [update_of_ne heq] at hn
      by_cases heq' : n = source
      · rw [heq', update_self] at hn
        cases hn
      · rw [update_of_ne heq'] at hn
        exact .inr ⟨heq', hn⟩
  refine h.of_names (fun n id hn => ?_) fun n n' id hn hn' => ?_
  · rcases hnames n id hn with ⟨heq, hid⟩ | ⟨-, hid⟩
    · exact ⟨source, hid, .inl (heq ▸ htrash)⟩
    · exact ⟨n, hid, .inr rfl⟩
  · rcases hnames n id hn with ⟨heq, hid⟩ | ⟨hne, hid⟩ <;>
      rcases hnames n' id hn' with ⟨heq', hid'⟩ | ⟨hne', hid'⟩
    · rw [heq, heq']
    · exact (hne' (h.unique _ _ id hid' hid)).elim
    · exact (hne (h.unique _ _ id hid hid')).elim
    · exact h.unique n n' id hid hid'

end Inv

namespace Rely

variable {pid : Nat} {s : Root}

theorem put (id : Nat) (change : Change) : Rely pid s (s.put id change) := by
  refine of_directory (by simp) le_rfl (Nat.le_succ _)
    (fun _ found hfound => ?_) (fun authority time _ hfound => ?_) (fun _ => ?_) fun _ hsame => ?_
  · rw [apply_authority]
    exact hfound
  · rw [apply_authority] at hfound
    exact hfound
  · rcases (s.directories id).apply_writes s.writeCount s.clock change with hsame | ⟨shown, hmore⟩
    · exact ⟨[], by rw [hsame, append_nil], by simp⟩
    · exact ⟨_, hmore, by simp⟩
  · rcases (s.directories id).apply_writes s.writeCount s.clock change with heq | ⟨shown, hmore⟩
    · rw [heq]
      exact fun _ _ htime => htime
    · rw [hmore] at hsame
      simp at hsame

theorem makeAuthority {id : Nat} (hnone : (s.directories id).authority = none) :
    Rely pid s (s.makeAuthority id) := by
  refine of_directory rfl (Nat.le_succ _) le_rfl
    (fun _ found hfound => ?_) (fun authority time hlt hfound => ?_) (fun _ => ⟨[], by simp⟩)
    fun _ _ child time htime => ?_
  · rw [hnone] at hfound
    cases hfound
  · cases hfound
    omega
  · cases child with
    | authority =>
      rw [childTime, hnone] at htime
      cases htime
    | other name => exact htime

theorem strip {id : Nat} (hhome : ¬ s.AtHome id) (child : Child) :
    Rely pid s (s.setDirectory id (stripped (s.directories id) s.clock child)) := by
  refine of_directory (by cases child <;> rfl) le_rfl le_rfl
    (fun hat => (hhome hat).elim) (fun authority time hlt hfound => ?_)
    (fun hat => (hhome hat).elim) fun hat => (hhome hat).elim
  cases child with
  | authority => cases hfound
  | other name => exact hfound

theorem makeChild (hname : s.names name = none) : Rely pid s (s.makeChild name) := by
  have hold (id : Nat) (hlt : id < s.nextDirectory) :
      (s.makeChild name).directories id = s.directories id := update_of_ne hlt.ne ..
  have hhome (id : Nat) (hlt : id < s.nextDirectory) :
      (s.makeChild name).AtHome id ↔ s.AtHome id := by
    rw [AtHome, AtHome, hold id hlt]
    by_cases heq : (s.directories id).born = name
    · rw [heq, show (s.makeChild name).names name = some (.directory s.nextDirectory) from
        update_self .., hname]
      simp [hlt.ne']
    · rw [show (s.makeChild name).names _ = s.names _ from update_of_ne heq ..]
  constructor
  case spawn => exact fun _ => Iff.rfl
  case authority => exact fun _ => Iff.rfl
  case sampled => rfl
  case nextDirectory => exact Nat.le_succ _
  case nextAuthority => exact le_rfl
  case writeCount => exact le_rfl
  case born => exact fun id hlt => by rw [hold id hlt]
  case home => exact fun id hlt => (hhome id hlt).mp
  case guarded => exact fun id hlt hat _ => (hhome id hlt).mpr hat
  case child =>
    intro id hlt _ found hfound
    rw [hold id hlt]
    exact hfound
  case back =>
    intro id authority time _ hfound
    by_cases heq : id = s.nextDirectory
    · rw [heq, show (s.makeChild name).directories s.nextDirectory =
        { born := name, modified := s.clock } from update_self ..] at hfound
      cases hfound
    · rw [show (s.makeChild name).directories id = s.directories id from
        update_of_ne heq ..] at hfound
      exact hfound
  case writes => exact fun id hlt _ => ⟨[], by simp [hold id hlt]⟩
  case fresh =>
    intro id hle hlt _ w hw
    have heq : id = s.nextDirectory := Nat.le_antisymm (Nat.le_of_lt_succ hlt) hle
    rw [heq, show (s.makeChild name).directories s.nextDirectory =
      { born := name, modified := s.clock } from update_self ..] at hw
    cases hw
  case times =>
    intro id hlt _ _ child time htime
    rw [hold id hlt]
    exact htime

/-- Names are lost, or pass to trash, where no other process guards the directory. -/
theorem of_names (h : Inv s) (hnames : ∀ name id, names name = some (.directory id) → ¬ IsTrash name →
      s.names name = some (.directory id)) (hguards : ∀ id, s.AtHome id → s.Guards pid id →
      names (s.directories id).born = some (.directory id)) : Rely pid s { s with names := names } where
  spawn _ := Iff.rfl
  authority _ := Iff.rfl
  sampled := rfl
  nextDirectory := le_rfl
  nextAuthority := le_rfl
  writeCount := le_rfl
  born _ _ := rfl
  home id hlt hat := hnames _ id hat (h.born id hlt)
  guarded id _ hat hguard := hguards id hat hguard
  child _ _ _ _ hfound := hfound
  back _ _ _ _ hfound := hfound
  writes _ _ _ := ⟨[], by simp⟩
  fresh id hle hlt := (Nat.not_lt_of_le hle hlt).elim
  times _ _ _ _ _ _ htime := htime

theorem forget (h : Inv s) (htrash : IsTrash name) : Rely pid s (s.setName name none) := by
  refine of_names h (fun n id hn hn' => ?_) fun id hat _ => ?_
  · have hne : n ≠ name := by
      intro heq
      rw [heq] at hn'
      exact hn' htrash
    rw [update_of_ne hne] at hn
    exact hn
  · have hne : (s.directories id).born ≠ name := fun heq =>
      h.born id (h.lt_of_atHome hat) (heq ▸ htrash)
    rw [update_of_ne hne]
    exact hat

/-- A directory both of whose locks one process holds is moved by that process. -/
theorem rename (h : Inv s) {mover id : Nat} {source target : Name} (hmover : pid ≠ mover)
    (hsource : s.names source = some (.directory id))
    (htrash : IsTrash target) (hspawn : s.spawnLock id = some mover) {authority : Nat} {time : Time}
    (hchild : (s.directories id).authority = some (authority, time))
    (hlock : s.authorityLock authority = some mover) :
    Rely pid s ((s.setName source none).setName target (some (.directory id))) := by
  refine of_names h (fun n other hn hn' => ?_) fun other hat hguards => ?_
  · have hne : n ≠ target := by
      intro heq
      rw [heq] at hn'
      exact hn' htrash
    rw [update_of_ne hne] at hn
    by_cases heq : n = source
    · rw [heq, setName_self] at hn
      cases hn
    · rw [setName_of_ne heq] at hn
      exact hn
  · have hne : (s.directories other).born ≠ target := fun heq =>
      h.born other (h.lt_of_atHome hat) (heq ▸ htrash)
    have hne' : (s.directories other).born ≠ source := by
      intro heq
      rw [AtHome, heq, hsource] at hat
      cases hat
      rcases hguards with hother | ⟨found, time', hfound, hother⟩
      · rw [hspawn] at hother
        exact hmover (some.inj hother).symm
      · rw [hchild] at hfound
        cases hfound
        rw [hlock] at hother
        exact hmover (some.inj hother).symm
    rw [update_of_ne hne, setName_of_ne hne']
    exact hat

end Rely

end Unica.Collection
