import Unica.Lib.Journal
import Unica.Workspace.Ways

/-!
# What the journals of a retained apply know

Every item of the three journals names the entries of the tree it changed. Together they
account for the whole difference to the tree before the call, and they nest: taking back
the directories and removals in reverse finds each parent where it was retained.
-/

namespace Unica.Workspace

open Lib Session List Name DirectoryImage Directory Tree Finmap

inductive Work where
  | change (c : PublishedChange)
  | made (c : CreatedDirectory)
  | removed (r : PublishedRemoval)

namespace PublishedChange

def target (c : PublishedChange) : Key := (c.parent.identity, c.name)

def keys (c : PublishedChange) : List Key :=
  c.target :: (c.recoveryName.map fun name => (c.parent.identity, name)).toList

end PublishedChange

def CreatedDirectory.key (c : CreatedDirectory) : Key := (c.parent.identity, c.name)

namespace PublishedRemoval

def target (r : PublishedRemoval) : Key := (r.parent.identity, r.name)

def recoveryKey (r : PublishedRemoval) : Key := (r.parent.identity, r.recoveryName)

/-- The removed directory under its old name again. -/
def back (r : PublishedRemoval) (t : Tree) : Tree :=
  t.moved r.parent.identity r.recoveryName r.name (.directory r.plan.image.identity)

end PublishedRemoval

def Work.keys : Work → List Key
  | .change c => c.keys
  | .made c => [c.key]
  | .removed r => [r.target, r.recoveryKey]

variable {v₀ v v' : Volume} {t t' : Tree} {s : Session} {k : Key}
variable {r : PublishedRemoval} {w : Work} {c : CreatedDirectory}

/-- A file of the transaction under its name. -/
structure RegularFile.New (v₀ : Volume) (t : Tree) (parent : Directory) (name : Name)
    (file : RegularFile) : Prop where
  under : file.parent = parent
  named : file.name = name
  identity : v₀.nextIdentity ≤ file.identity
  found : ∃ bytes, t.lookup (parent.identity, name) = some (.file file.identity 1 bytes)

/-- A file from before the call under its recovery name. -/
structure PublishedChange.Displaces (v₀ : Volume) (t : Tree) (c : PublishedChange)
    (recoveryName : Name) (file : RegularFile) : Prop where
  under : file.parent = c.parent
  named : file.name = recoveryName
  drawn : recoveryName.settled v₀.nextSerial = false
  moved : ∃ bytes, v₀.tree.lookup c.target = some (.file file.identity 1 bytes) ∧
    t.lookup (c.parent.identity, recoveryName) = some (.file file.identity 1 bytes)
  free : v₀.tree.lookup (c.parent.identity, recoveryName) = none

/-- What a journalled change knows of its entries before the call and now. -/
def PublishedChange.Stands (v₀ : Volume) (t : Tree) (c : PublishedChange) : Prop :=
  match c.recoveryName, c.displaced with
  | none, none => v₀.tree.lookup c.target = none ∧
      ∃ file, c.published = some file ∧ file.New v₀ t c.parent c.name
  | some recoveryName, some file => c.Displaces v₀ t recoveryName file ∧
      match c.published with
      | none => t.lookup c.target = none
      | some published => published.New v₀ t c.parent c.name
  | _, _ => False

structure CreatedDirectory.Stands (v₀ : Volume) (t : Tree) (c : CreatedDirectory) : Prop where
  shape : c.directory = .child c.parent c.name c.directory.identity
  identity : v₀.nextIdentity ≤ c.directory.identity
  free : v₀.tree.lookup c.key = none
  found : t.lookup c.key = some (.directory c.directory.identity)

structure PublishedRemoval.Stands (v₀ : Volume) (t : Tree) (r : PublishedRemoval) : Prop where
  shape : r.recovery = .child r.parent r.recoveryName r.plan.image.identity
  drawn : r.recoveryName.settled v₀.nextSerial = false
  before : v₀.tree.lookup r.target = some (.directory r.plan.image.identity)
  free : v₀.tree.lookup r.recoveryKey = none
  found : t.lookup r.recoveryKey = some (.directory r.plan.image.identity)
  gone : t.lookup r.target = none

def Work.Stands (v₀ : Volume) (w : Work) (_ t : Tree) : Prop :=
  match w with
  | .change c => c.Stands v₀ t
  | .made c => c.Stands v₀ t
  | .removed r => r.Stands v₀ t

theorem Work.stands_local : Local keys (Stands v₀) := by
  intro w before now now' hagree h
  cases w with
  | change c =>
    obtain ⟨parent, path, name, recoveryName, kind, published, displaced⟩ := c
    have htarget := hagree (parent.identity, name) mem_cons_self
    cases recoveryName with
    | none =>
      cases displaced with
      | some _ => exact h
      | none =>
        obtain ⟨hfree, file, hfile, hnew⟩ := h
        exact ⟨hfree, file, hfile, { hnew with found := htarget ▸ hnew.found }⟩
    | some recoveryName =>
      cases displaced with
      | none => exact h
      | some file =>
        have hrecovery := hagree (parent.identity, recoveryName) (mem_cons_of_mem _ mem_cons_self)
        obtain ⟨hdisplaces, hpublished⟩ := h
        refine ⟨{ hdisplaces with moved := ?_ }, ?_⟩
        · obtain ⟨bytes, hbefore, hnow⟩ := hdisplaces.moved
          exact ⟨bytes, hbefore, hrecovery.trans hnow⟩
        · cases published with
          | none => exact htarget.trans hpublished
          | some published => exact { hpublished with found := htarget ▸ hpublished.found }
  | made c =>
    exact { h with found := (hagree _ mem_cons_self).trans h.found }
  | removed r =>
    exact { h with
      found := (hagree _ (mem_cons_of_mem _ mem_cons_self)).trans h.found
      gone := (hagree _ mem_cons_self).trans h.gone }

/-- Take the directories and removals back one by one: each finds its parent. -/
def Nested (t : Tree) : List Work → Prop
  | [] => True
  | .change _ :: rest => Nested t rest
  | .made c :: rest =>
      c.parent.namedIdentityMatches (t.erase c.key) = true ∧ Nested (t.erase c.key) rest
  | .removed r :: rest => r.parent.namedIdentityMatches t = true ∧ Nested (r.back t) rest

theorem Nested.keepsLinks {works : List Work} (hk : KeepsLinks t t') (h : Nested t works) :
    Nested t' works := by
  induction works generalizing t t' with
  | nil => trivial
  | cons w rest ih =>
    cases w with
    | change c => exact ih hk h
    | made c =>
      have hk' : KeepsLinks (t.erase c.key) (t'.erase c.key) := by
        intro k i hlink
        have := hk k i
        grind
      exact ⟨hk'.matches h.1, ih hk' h.2⟩
    | removed r =>
      refine ⟨hk.matches h.1, ih ?_ h.2⟩
      intro k i hlink
      have := hk k i
      unfold PublishedRemoval.back at hlink ⊢
      grind

namespace Session

/-- The directories and removals, the latest first. -/
def moves (s : Session) : List Work := s.created.map .made ++ s.removed.map .removed

def works (s : Session) : List Work := s.published.map .change ++ s.moves

@[simp]
theorem mem_works_change {c : PublishedChange} : .change c ∈ s.works ↔ c ∈ s.published := by
  simp [works, moves]

@[simp]
theorem mem_works_made : .made c ∈ s.works ↔ c ∈ s.created := by
  simp [works, moves]

@[simp]
theorem mem_works_removed : .removed r ∈ s.works ↔ r ∈ s.removed := by
  simp [works, moves]

end Session

/-- The session accounts for every difference to the volume before the call. -/
structure Consistent (v₀ : Volume) (s : Session) : Prop where
  sound : s.volume.Sound
  calm : s.volume.Calm
  identity : v₀.nextIdentity ≤ s.volume.nextIdentity
  serial : v₀.nextSerial ≤ s.volume.nextSerial
  journal : Journalled Work.keys (Work.Stands v₀) v₀.tree s.volume.tree s.works
  names : ∀ w ∈ s.works, ∀ k ∈ w.keys, k.2.settled s.volume.nextSerial = true
  nested : Nested s.volume.tree s.moves
  images : ∀ r ∈ s.removed, r.plan.image.stands v₀.tree = true
  outside : ∀ r ∈ s.removed, ∀ w ∈ s.works, ∀ k ∈ w.keys, k.1 ∉ r.plan.image.directories
  settled : ∀ c ∈ s.created, c.published = true →
    ∀ name ∈ c.directory.fullPath, name.settled v₀.nextSerial = true

theorem Name.settled_mono {n : Name} {a b : Nat} (h : a ≤ b) (hs : n.settled a = true) :
    n.settled b = true := by
  cases n with
  | plain _ => rfl
  | artifact kind serial =>
    have : serial < a := of_decide_eq_true hs
    exact decide_eq_true (by omega)

namespace Consistent

theorem start (hs : v.Sound) (hc : v.Calm) (hid : v₀.nextIdentity ≤ v.nextIdentity)
    (hserial : v₀.nextSerial ≤ v.nextSerial) (htree : v.tree = v₀.tree) :
    Consistent v₀ ⟨v, [], [], []⟩ where
  sound := hs
  calm := hc
  identity := hid
  serial := hserial
  journal := by
    rw [htree]
    exact .empty
  names := fun _ h => absurd h not_mem_nil
  nested := trivial
  images := fun _ h => absurd h not_mem_nil
  outside := fun _ h => absurd h not_mem_nil
  settled := fun _ h => absurd h not_mem_nil

section

variable (h : Consistent v₀ s)
include h

/-- A call that left the tree alone. -/
theorem same (hr : s.volume.Reaches s.volume.tree v') : Consistent v₀ { s with volume := v' } where
  __ := h
  sound := h.sound.same hr
  calm := h.calm.reaches hr
  identity := h.identity.trans hr.identity
  serial := h.serial.trans hr.serial
  journal := by
    rw [hr.tree]
    exact h.journal
  names := fun w hw k hk => settled_mono hr.serial (h.names w hw k hk)
  nested := by
    rw [hr.tree]
    exact h.nested

/-- What the journals say of an entry they have. -/
theorem mem_works_cases (hw : w ∈ s.works) (hk : k ∈ w.keys) :
    (v₀.tree.lookup k = none ∧ (s.volume.tree.lookup k).isSome = true) ∨
      k.2.settled v₀.nextSerial = false ∧ v₀.tree.lookup k = none ∨
      (∃ identity bytes, v₀.tree.lookup k = some (.file identity 1 bytes) ∧
        (s.volume.tree.lookup k = none ∨ ∃ identity' bytes', v₀.nextIdentity ≤ identity' ∧
          s.volume.tree.lookup k = some (.file identity' 1 bytes'))) ∨
      ∃ r ∈ s.removed, k = r.target ∧ v₀.tree.lookup k = some (.directory r.plan.image.identity) ∧
        s.volume.tree.lookup k = none := by
  have hstands := h.journal.stands w hw
  cases w with
  | change c =>
    obtain ⟨parent, path, name, recoveryName, kind, published, displaced⟩ := c
    cases recoveryName with
    | none =>
      cases displaced with
      | some _ => exact hstands.elim
      | none =>
        obtain ⟨hfree, file, -, hnew⟩ := hstands
        obtain ⟨bytes, hfound⟩ := hnew.found
        rcases mem_cons.mp hk with rfl | hk
        · refine .inl ⟨hfree, ?_⟩
          change (s.volume.tree.lookup (parent.identity, name)).isSome = true
          rw [hfound]
          rfl
        · cases hk
    | some recoveryName =>
      cases displaced with
      | none => exact hstands.elim
      | some file =>
        obtain ⟨hdisplaces, hpublished⟩ := hstands
        obtain ⟨bytes, hbefore, -⟩ := hdisplaces.moved
        rcases mem_cons.mp hk with rfl | hk
        · refine .inr (.inr (.inl ⟨_, bytes, hbefore, ?_⟩))
          cases published with
          | none => exact .inl hpublished
          | some published =>
            obtain ⟨bytes', hfound⟩ := hpublished.found
            exact .inr ⟨_, bytes', hpublished.identity, hfound⟩
        · rcases mem_singleton.mp hk with rfl
          exact .inr (.inl ⟨hdisplaces.drawn, hdisplaces.free⟩)
  | made c =>
    rcases mem_singleton.mp hk with rfl
    refine .inl ⟨hstands.free, ?_⟩
    rw [hstands.found]
    rfl
  | removed r =>
    rcases mem_cons.mp hk with rfl | hk
    · exact .inr (.inr (.inr ⟨r, mem_works_removed.mp hw, rfl, hstands.before, hstands.gone⟩))
    · rcases mem_singleton.mp hk with rfl
      exact .inr (.inl ⟨hstands.drawn, hstands.free⟩)

/-- An entry that was and is free, under a name of the plan, belongs to no journal. -/
theorem not_mem_of_free (hbefore : v₀.tree.lookup k = none) (hnow : s.volume.tree.lookup k = none)
    (hname : k.2.settled v₀.nextSerial = true) (hw : w ∈ s.works) : k ∉ w.keys := by
  intro hk
  have := h.mem_works_cases hw hk
  grind

/-- A directory that is there under a name of the plan, while only removals were made. -/
theorem not_mem_of_directory {identity : Nat} (hcreated : s.created = [])
    (hpublished : s.published = []) (hnow : s.volume.tree.lookup k = some (.directory identity))
    (hname : k.2.settled v₀.nextSerial = true) (hw : w ∈ s.works) : k ∉ w.keys := by
  intro hk
  have hstands := h.journal.stands w hw
  simp only [works, moves, hcreated, hpublished, map_nil, nil_append, mem_map] at hw
  obtain ⟨r, -, rfl⟩ := hw
  have hgone := hstands.gone
  have hdrawn := hstands.drawn
  rcases mem_cons.mp hk with rfl | hk
  · rw [hgone] at hnow
    cases hnow
  · rcases mem_singleton.mp hk with rfl
    rw [show r.recoveryKey.2 = r.recoveryName from rfl, hdrawn] at hname
    cases hname

/-- A name drawn now belongs to no journal. -/
theorem not_mem_of_drawn {d serial : Nat} {kind : ArtifactKind}
    (hserial : s.volume.nextSerial ≤ serial) (hw : w ∈ s.works) : (d, artifact kind serial) ∉ w.keys := by
  intro hk
  have hname := h.names w hw _ hk
  rw [not_settled hserial] at hname
  cases hname

/-- Images of removed directories are as they were. -/
theorem image_stands (hr : r ∈ s.removed) : r.plan.image.stands s.volume.tree = true := by
  refine stands_of_agree (h.images r hr) fun x hx n => ?_
  exact h.journal.frame (x, n) fun w hw hk => h.outside r hr w hw _ hk hx

theorem removal_stands (hr : r ∈ s.removed) : r.Stands v₀ s.volume.tree :=
  h.journal.stands (.removed r) (mem_works_removed.mpr hr)

theorem change_stands {c : PublishedChange} (hc : c ∈ s.published) : c.Stands v₀ s.volume.tree :=
  h.journal.stands (.change c) (mem_works_change.mpr hc)

theorem made_stands (hc : c ∈ s.created) : c.Stands v₀ s.volume.tree :=
  h.journal.stands (.made c) (mem_works_made.mpr hc)

/-- A way through names of the plan does not enter a removed directory. -/
theorem way_outside {p : List Name} {d : Nat} (hway : s.volume.tree.resolve top p = some d)
    (hnames : ∀ name ∈ p, name.settled v₀.nextSerial = true) (hr : r ∈ s.removed) : d ∉ r.plan.image.directories := by
  have hstands := h.removal_stands hr
  refine not_inside h.sound (h.image_stands hr) hstands.found hway fun p' hpre _ => ?_
  have hname := hnames _ (hpre.subset (mem_append_right _ mem_cons_self))
  rw [show r.recoveryKey.2 = r.recoveryName from rfl, hstands.drawn] at hname
  cases hname

/-- A retained directory that still matches its names is outside every removed one. -/
theorem parent_outside {parent : Directory} (hmatch : parent.namedIdentityMatches s.volume.tree = true)
    (hnames : ∀ name ∈ parent.fullPath, name.settled v₀.nextSerial = true) (hr : r ∈ s.removed) :
    parent.identity ∉ r.plan.image.directories :=
  h.way_outside (matches_resolve hmatch) hnames hr

/-- One more item, whose entries are new to the journals. -/
theorem push {s' : Session} (w : Work) (hworks : s'.works.Perm (w :: s.works))
    (hsound : s'.volume.Sound) (hreach : s.volume.Reaches t s'.volume)
    (hagree : AgreeOutside w.keys s.volume.tree t) (hstands : w.Stands v₀ v₀.tree t)
    (hfree : ∀ w' ∈ s.works, ∀ k ∈ w.keys, k ∉ w'.keys)
    (hnames : ∀ k ∈ w.keys, k.2.settled s'.volume.nextSerial = true) (hnested : Nested t s'.moves)
    (himages : ∀ r ∈ s'.removed, r.plan.image.stands v₀.tree = true)
    (hinside : ∀ r ∈ s'.removed, ∀ k ∈ w.keys, k.1 ∉ r.plan.image.directories)
    (houtside : ∀ r ∈ s'.removed, ∀ w ∈ s.works, ∀ k ∈ w.keys, k.1 ∉ r.plan.image.directories)
    (hsettled : ∀ c ∈ s'.created, c.published = true →
      ∀ name ∈ c.directory.fullPath, name.settled v₀.nextSerial = true) : Consistent v₀ s' := by
  have hmem : ∀ w' ∈ s'.works, w' = w ∨ w' ∈ s.works :=
    fun w' hw => mem_cons.mp (hworks.mem_iff.mp hw)
  refine ⟨hsound, h.calm.reaches hreach, h.identity.trans hreach.identity,
    h.serial.trans hreach.serial, ?_, ?_, hreach.tree ▸ hnested, himages, ?_, hsettled⟩
  · rw [hreach.tree]
    exact (h.journal.push Work.stands_local hagree hstands hfree).perm hworks.symm
  · intro w' hw k hk
    rcases hmem w' hw with rfl | hw
    · exact hnames k hk
    · exact settled_mono hreach.serial (h.names w' hw k hk)
  · intro r hr w' hw k hk
    rcases hmem w' hw with rfl | hw
    · exact hinside r hr k hk
    · exact houtside r hr w' hw k hk

/-- A change is made below a retained parent. -/
theorem pushChange {c : PublishedChange} (hsound : v'.Sound) (hreach : s.volume.Reaches t v')
    (hagree : AgreeOutside c.keys s.volume.tree t) (hlinks : KeepsLinks s.volume.tree t)
    (hstands : c.Stands v₀ t) (hfree : ∀ w ∈ s.works, ∀ k ∈ c.keys, k ∉ w.keys)
    (hnames : ∀ k ∈ c.keys, k.2.settled v'.nextSerial = true)
    (houtside : ∀ r ∈ s.removed, c.parent.identity ∉ r.plan.image.directories) :
    Consistent v₀ { s with volume := v', published := c :: s.published } := by
  refine h.push (.change c) (.refl _) hsound hreach hagree hstands hfree hnames
    (h.nested.keepsLinks hlinks) h.images (fun r hr k hk => ?_) h.outside h.settled
  have hparent : k.1 = c.parent.identity := by
    rcases mem_cons.mp hk with rfl | hk
    · rfl
    · obtain ⟨name, -, rfl⟩ := Option.mem_map.mp (Option.mem_toList.mp hk)
      rfl
  rw [hparent]
  exact houtside r hr

/-- The latest change goes on with the entries it has. -/
theorem replaceChange {c c' : PublishedChange} {rest : List PublishedChange}
    (hs : s.published = c :: rest) (hkeys : c'.keys = c.keys) (hsound : v'.Sound)
    (hreach : s.volume.Reaches t v') (hagree : AgreeOutside c.keys s.volume.tree t)
    (hlinks : KeepsLinks s.volume.tree t) (hstands : c'.Stands v₀ t) :
    Consistent v₀ { s with volume := v', published := c' :: rest } := by
  have hworks : s.works = .change c :: (rest.map .change ++ s.moves) := by
    unfold works
    rw [hs]
    rfl
  have hall : ∀ {P : Work → Prop}, (P (.change c) → P (.change c')) → (∀ w ∈ s.works, P w) →
      ∀ w ∈ (Work.change c' :: (rest.map .change ++ s.moves)), P w := by
    intro P hto hall w hw
    rw [hworks] at hall
    rcases mem_cons.mp hw with rfl | hw
    · exact hto (hall _ mem_cons_self)
    · exact hall w (mem_cons_of_mem _ hw)
  have hk : (Work.change c').keys = (Work.change c).keys := hkeys
  refine ⟨hsound, h.calm.reaches hreach, h.identity.trans hreach.identity,
    h.serial.trans hreach.serial, ?_, ?_, ?_, h.images, ?_, h.settled⟩
  · change Journalled _ _ _ v'.tree (.change c' :: (rest.map .change ++ s.moves))
    rw [hreach.tree]
    have hj := h.journal
    rw [hworks] at hj
    exact hj.replace Work.stands_local hk hagree hstands
  · intro w hw k hkw
    refine settled_mono hreach.serial ?_
    exact hall
      (fun hc => by rwa [hk]) h.names w hw k hkw
  · change Nested v'.tree s.moves
    rw [hreach.tree]
    exact h.nested.keepsLinks hlinks
  · intro r hr
    exact hall
      (fun hc => by rwa [hk]) (h.outside r hr)

/-- A missing parent is made below a retained one. -/
theorem pushMade (hmade : Made s.volume c.parent c.name c.directory v')
    (hsound : v'.Sound) (hbefore : v₀.tree.lookup c.key = none)
    (hfree : ∀ w ∈ s.works, c.key ∉ w.keys) (hname : c.name.settled v'.nextSerial = true)
    (hmatch : c.parent.namedIdentityMatches s.volume.tree = true)
    (houtside : ∀ r ∈ s.removed, c.parent.identity ∉ r.plan.image.directories)
    (hsettled : c.published = true →
      ∀ name ∈ c.directory.fullPath, name.settled v₀.nextSerial = true) :
    Consistent v₀ { s with volume := v', created := c :: s.created } := by
  have hreach : s.volume.Reaches (s.volume.tree.insert c.key (.directory c.directory.identity)) v' :=
    hmade.reaches
  refine h.push (.made c) perm_middle hsound hreach ?_ ?_ ?_ ?_ ?_ h.images ?_ h.outside ?_
  · intro k hk
    rw [Table.lookup_insert_ite, if_neg fun heq => hk (mem_singleton.mpr heq)]
  · exact ⟨hmade.shape, h.identity.trans hmade.from_new, hbefore, lookup_insert _⟩
  · intro w hw k hk
    rcases mem_singleton.mp hk with rfl
    exact hfree w hw
  · intro k hk
    rcases mem_singleton.mp hk with rfl
    exact hname
  · refine ⟨?_, ?_⟩ <;> rw [show erase c.key _ = _ from erase_insert hmade.free]
    · exact hmatch
    · exact h.nested
  · intro r hr k hk
    rcases mem_singleton.mp hk with rfl
    exact houtside r hr
  · intro c' hc' hpublished
    rcases mem_cons.mp hc' with rfl | hc'
    · exact hsettled hpublished
    · exact h.settled c' hc' hpublished

/-- A directory is moved to its recovery name. -/
theorem pushRemoved (hsound : v'.Sound)
    (hreach : s.volume.Reaches (s.volume.tree.moved r.parent.identity r.name r.recoveryName
      (.directory r.plan.image.identity)) v') (hcreated : s.created = [])
    (hat : s.volume.tree.lookup r.target =
      some (.directory r.plan.image.identity)) (hfree : s.volume.tree.lookup r.recoveryKey = none)
    (hstands : r.Stands v₀ v'.tree) (hnew : ∀ w ∈ s.works, r.target ∉ w.keys ∧ r.recoveryKey ∉ w.keys)
    (hname : r.name.settled v'.nextSerial = true) (hrecovery : r.recoveryName.settled v'.nextSerial = true)
    (hmatch : r.parent.namedIdentityMatches s.volume.tree = true)
    (himage : r.plan.image.stands v₀.tree = true) (hinside : r.parent.identity ∉ r.plan.image.directories)
    (houtside : ∀ r' ∈ s.removed, r.parent.identity ∉ r'.plan.image.directories)
    (hothers : ∀ w ∈ s.works, ∀ k ∈ w.keys, k.1 ∉ r.plan.image.directories) :
    Consistent v₀ { s with volume := v', removed := r :: s.removed } := by
  have hperm : (works { s with volume := v', removed := r :: s.removed }).Perm
      (.removed r :: s.works) := by
    unfold works moves
    rw [← append_assoc, ← append_assoc]
    exact perm_middle
  have hkeys : ∀ k ∈ (Work.removed r).keys, k = r.target ∨ k = r.recoveryKey := by
    intro k hk
    rcases mem_cons.mp hk with rfl | hk
    · exact .inl rfl
    · exact .inr (mem_singleton.mp hk)
  rw [hreach.tree] at hstands
  refine h.push (.removed r) hperm hsound hreach ?_ hstands ?_ ?_ ?_ ?_ ?_ ?_ h.settled
  · intro k hk
    have h₁ : k ≠ (r.parent.identity, r.recoveryName) := fun heq =>
      hk (mem_cons_of_mem _ (mem_singleton.mpr heq))
    have h₂ : k ≠ (r.parent.identity, r.name) := fun heq => hk (mem_cons.mpr (.inl heq))
    rw [lookup_moved, if_neg h₁, if_neg h₂]
  · intro w hw k hk
    rcases hkeys k hk with rfl | rfl
    · exact (hnew w hw).1
    · exact (hnew w hw).2
  · intro k hk
    rcases hkeys k hk with rfl | rfl
    · exact hname
    · exact hrecovery
  · have hmoves : moves { s with volume := v', removed := r :: s.removed } =
        .removed r :: s.moves := by
      unfold moves
      rw [hcreated]
      rfl
    rw [hmoves]
    refine ⟨matches_moved h.sound hmatch, ?_⟩
    change Nested (moved _ _ _ _ _) s.moves
    rw [moved_back hat hfree]
    exact h.nested
  · exact forall_mem_cons.mpr ⟨himage, h.images⟩
  · intro r' hr' k hk
    have hparent : k.1 = r.parent.identity := by rcases hkeys k hk with rfl | rfl <;> rfl
    rw [hparent]
    rcases mem_cons.mp hr' with rfl | hr'
    · exact hinside
    · exact houtside r' hr'
  · exact forall_mem_cons.mpr ⟨hothers, h.outside⟩

end

end Consistent

end Unica.Workspace
