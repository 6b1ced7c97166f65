import Unica.Workspace.Publication

/-!
# What single publications leave behind

Each operation ends in a named tree, whether it succeeds or fails. The calls whose failure
leaves something nobody knows of are told apart: on a volume none of whose calls of that
kind is to fail, an error either changed nothing or carries what it left.
-/

namespace Unica.Workspace

open Lib Tree Table Directory Option Finmap Volume

variable {v v' v'' : Volume} {t t' : Tree} {site : Site}

/-! ## Volumes -/

namespace Volume

/-- From one volume to a later one with the given tree. -/
structure Reaches (v : Volume) (t : Tree) (v' : Volume) : Prop where
  tree : v'.tree = t
  identity : v.nextIdentity ≤ v'.nextIdentity
  serial : v.nextSerial ≤ v'.nextSerial
  fault : v'.fault = none ∨ ∃ site n n', v.fault = some (site, n) ∧ v'.fault = some (site, n')

theorem Reaches.refl : v.Reaches v.tree v where
  tree := rfl
  identity := le_rfl
  serial := le_rfl
  fault := by
    rcases h : v.fault with _ | ⟨site, n⟩
    · exact .inl rfl
    · exact .inr ⟨site, n, n, rfl, rfl⟩

theorem Reaches.trans (h : v.Reaches t v') (h' : v'.Reaches t' v'') : v.Reaches t' v'' where
  tree := h'.tree
  identity := h.identity.trans h'.identity
  serial := h.serial.trans h'.serial
  fault := by
    rcases h'.fault with hnone | ⟨site, n, n', hfrom, hto⟩
    · exact .inl hnone
    · rcases h.fault with hnone | ⟨site', m, m', hfrom', hto'⟩
      · rw [hnone] at hfrom
        cases hfrom
      · rw [hto'] at hfrom
        cases hfrom
        exact .inr ⟨_, _, _, hfrom', hto⟩

theorem Reaches.here (h : v.Reaches t v') : v'.Reaches t v' := h.tree ▸ refl

theorem Reaches.stay (h : v.Reaches t v') (h' : v'.Reaches v'.tree v'') : v.Reaches t v'' :=
  h.tree ▸ h.trans h'

/-- The call that was to fail did, and nothing else will. -/
def Struck (v : Volume) (site : Site) (v' : Volume) : Prop :=
  (∃ n, v.fault = some (site, n)) ∧ v'.fault = none

theorem Struck.of_reaches (h : v.Reaches t v') (hs : v'.Struck site v'') : v.Struck site v'' := by
  obtain ⟨⟨n, hn⟩, hnone⟩ := hs
  rcases h.fault with hnone' | ⟨site', m, m', hfrom, hto⟩
  · rw [hnone'] at hn
    cases hn
  · rw [hto] at hn
    cases hn
    exact ⟨⟨m, hfrom⟩, hnone⟩

end Volume

/-- A failure at this call is seen by the journals: it changed nothing, or what it left is
recorded. The others are the reopening of a file just renamed or of a directory just made,
the first read of a new file's identity, and the deletion of a file that already has its
quarantine name. -/
def Site.sound : Site → Bool
  | ⟨.stage, .identify⟩ => false
  | ⟨.stage, .openRenamed⟩ => false
  | ⟨.displace, .openRenamed⟩ => false
  | ⟨.directory, .openCreated⟩ => false
  | ⟨.directory, .identify⟩ => false
  | ⟨.quarantine, .openRenamed⟩ => false
  | ⟨.quarantine, .validate⟩ => false
  | ⟨.cleanup, _⟩ => false
  | ⟨.directoryQuarantine, .openRenamed⟩ => false
  | ⟨.directoryRestore, _⟩ => false
  | _ => true

/-- Only a sound call is to fail. -/
def Volume.Calm (v : Volume) : Prop := ∀ site n, v.fault = some (site, n) → site.sound = true

theorem Volume.Calm.reaches (hc : v.Calm) (h : v.Reaches t v') : v'.Calm := by
  intro site n hn
  rcases h.fault with hnone | ⟨site', m, m', hfrom, hto⟩
  · rw [hnone] at hn
    cases hn
  · rw [hto] at hn
    cases hn
    exact hc _ _ hfrom

theorem Volume.Calm.ne_fault (hc : v.Calm) (hsite : site.sound = false) (m : Nat) :
    v.fault ≠ some (site, m) := by
  intro hm
  rw [hc _ _ hm] at hsite
  cases hsite

theorem Volume.Calm.not_struck (hc : v.Calm) (hsite : site.sound = false)
    (hs : v.Struck site v') : False := by
  obtain ⟨⟨n, hn⟩, -⟩ := hs
  exact hc.ne_fault hsite n hn

/-- A tree of directories with room for new names and identities. -/
structure Volume.Sound (v : Volume) : Prop where
  parents : ∀ k, (v.tree.lookup k).isSome → k.1 < v.nextIdentity
  identities : ∀ k node, v.tree.lookup k = some node → node.identity < v.nextIdentity
  names : ∀ d kind serial, (v.tree.lookup (d, .artifact kind serial)).isSome → serial < v.nextSerial
  unique : ∀ k k' i, v.tree.lookup k = some (.directory i) → v.tree.lookup k' = some (.directory i) →
    k = k'
  unlinked : ∀ k, v.tree.lookup k ≠ some (.directory top)
  room : 0 < v.nextIdentity

namespace Volume.Sound

attribute [grind →] parents identities names unique room Reaches.identity Reaches.serial

theorem fresh_name (h : v.Sound) {d : Nat} {kind : ArtifactKind} {serial : Nat}
    (hs : v.nextSerial ≤ serial) : v.tree.lookup (d, .artifact kind serial) = none := by
  by_contra hne
  have := h.names d kind serial (isSome_iff_ne_none.mpr hne)
  omega

/-- Only names that were there or were drawn, and identities that were there. -/
theorem of_sub (h : v.Sound) (hr : v.Reaches t v')
    (hsub : ∀ k node, t.lookup k = some node → ∃ k', v.tree.lookup k' = some node ∧ k'.1 = k.1)
    (hname : ∀ d kind serial, (t.lookup (d, .artifact kind serial)).isSome → serial < v'.nextSerial)
    (hunique : ∀ k k' i, t.lookup k = some (.directory i) → t.lookup k' = some (.directory i) →
      k = k') : v'.Sound where
  parents := by
    intro k hk
    rw [hr.tree] at hk
    obtain ⟨node, hnode⟩ := isSome_iff_exists.mp hk
    obtain ⟨k', hk', hd⟩ := hsub k node hnode
    have := h.parents k' (by rw [hk']; rfl)
    have := hr.identity
    omega
  identities := by
    intro k node hnode
    rw [hr.tree] at hnode
    obtain ⟨k', hk', -⟩ := hsub k node hnode
    have := h.identities k' node hk'
    have := hr.identity
    omega
  names := fun d kind serial hs => hname d kind serial (hr.tree ▸ hs)
  unique := fun k k' i hk hk' => hunique k k' i (hr.tree ▸ hk) (hr.tree ▸ hk')
  unlinked := by
    intro k hk
    rw [hr.tree] at hk
    obtain ⟨k', hk', -⟩ := hsub k _ hk
    exact h.unlinked k' hk'
  room := lt_of_lt_of_le h.room hr.identity

theorem same (h : v.Sound) (hr : v.Reaches v.tree v') : v'.Sound :=
  h.of_sub hr (fun k _ hk => ⟨k, hk, rfl⟩)
    (fun d kind serial hs => lt_of_lt_of_le (h.names d kind serial hs) hr.serial)
    h.unique

theorem erase (h : v.Sound) {k : Key} (hr : v.Reaches (v.tree.erase k) v') : v'.Sound := by
  refine h.of_sub hr ?_ ?_ ?_
  · intro k' node hk'
    grind
  · intro d kind serial hs
    grind
  · intro k₁ k₂ i h₁ h₂
    grind

/-- A name is moved inside its directory. -/
theorem move (h : v.Sound) {d : Nat} {n n' : Name} {node : Node} (hk : v.tree.lookup (d, n) = some node)
    (hname : ∀ kind serial, n' = .artifact kind serial → serial < v'.nextSerial)
    (hr : v.Reaches ((v.tree.erase (d, n)).insert (d, n') node) v') : v'.Sound := by
  refine h.of_sub hr ?_ ?_ ?_
  · intro k' node' hk'
    by_cases heq : k' = (d, n')
    · refine ⟨(d, n), ?_, by rw [heq]⟩
      grind
    · refine ⟨k', ?_, rfl⟩
      grind
  · intro d' kind serial hs
    grind
  · intro k₁ k₂ i h₁ h₂
    grind

/-- A new node under a new name. -/
theorem insert (h : v.Sound) {k : Key} {node : Node}
    (hd : k.1 < v'.nextIdentity) (hfrom : v.nextIdentity ≤ node.identity)
    (hto : node.identity < v'.nextIdentity)
    (hname : ∀ kind serial, k.2 = .artifact kind serial → serial < v'.nextSerial)
    (hr : v.Reaches (v.tree.insert k node) v') : v'.Sound where
  parents := by
    intro k' hk'
    rw [hr.tree] at hk'
    grind
  identities := by
    intro k' node' hk'
    rw [hr.tree] at hk'
    grind
  names := by
    intro d kind serial hs
    rw [hr.tree] at hs
    grind
  unique := by
    intro k₁ k₂ i h₁ h₂
    rw [hr.tree] at h₁ h₂
    grind
  unlinked := by
    intro k' hk'
    rw [hr.tree] at hk'
    have := h.unlinked k'
    grind [Node.identity, top]
  room := lt_of_lt_of_le h.room hr.identity

end Volume.Sound

/-! ## Calls -/

section Calls

open Call

variable {ε : Type} {F : ε → Volume → Prop} {Q : Unit → Volume → Prop} {E : IoError → Volume → Prop}
  {site : Site} {d : Nat} {n n' : Name} {identity links : Nat} {bytes : Bytes} {place : Place}

theorem Volume.reaches_after : v.Reaches v.tree (v.after site) := by
  refine ⟨rfl, le_rfl, le_rfl, ?_⟩
  unfold after
  rcases h : v.fault with _ | ⟨site', _ | n⟩ <;> grind

theorem drawName_ends {Q : Name → Volume → Prop} {kind : ArtifactKind}
    (h : ∀ v', v.Reaches v.tree v' → v.nextSerial < v'.nextSerial →
      Q (.artifact kind v.nextSerial) v') : Ends (drawName kind) v Q F :=
  h _ ⟨rfl, le_rfl, Nat.le_succ _, (Reaches.refl).fault⟩ (Nat.lt_succ_self _)

/-- The tree after a name moved inside its directory. -/
def Tree.moved (t : Tree) (d : Nat) (n n' : Name) (node : Node) : Tree :=
  (t.erase (d, n)).insert (d, n') node

@[grind =] theorem Tree.lookup_moved {node : Node} {k : Key} : (t.moved d n n' node).lookup k =
      if k = (d, n') then some node else if k = (d, n) then none else t.lookup k := by
  unfold moved
  rw [lookup_insert_ite, lookup_erase_ite]

theorem Tree.lookup_moved_self {node : Node} : (t.moved d n n' node).lookup (d, n') = some node := by
  rw [lookup_moved, if_pos rfl]

section Later

/-! A call on a volume reached from an earlier one is described from the earlier one. -/

variable {v₀ : Volume} (hv : v₀.Reaches t v)
include hv

theorem strike_ends {e : ε} (hok : ∀ v', v₀.Reaches t v' → Q () v')
    (herr : ∀ v', v₀.Reaches t v' → v₀.Struck site v' → F e v') : Ends (strike site e) v Q F := by
  unfold Call.Ends strike
  by_cases hs : v.strikes site = true
  · rw [if_pos hs]
    have hfault : v.fault = some (site, 0) := of_decide_eq_true hs
    refine herr _ (hv.stay reaches_after) (.of_reaches hv ⟨⟨0, hfault⟩, ?_⟩)
    simp [after, hfault]
  · rw [if_neg hs]
    exact hok _ (hv.stay reaches_after)

/-- Open a regular child: what the name leads to, or a failure that changed nothing. -/
theorem openRegularChild_ends {Q : Nat → Volume → Prop}
    (hok : ∀ v' identity links bytes, t.lookup (d, n) = some (.file identity links bytes) →
      v₀.Reaches t v' → Q identity v')
    (herr : ∀ e v', v₀.Reaches t v' →
      (∀ identity links bytes, t.lookup (d, n) = some (.file identity links bytes) →
        v₀.Struck site v') → E e v') : Ends (openRegularChildNofollow site d n) v Q E := by
  refine .bind (strike_ends hv (fun v' hv => .bind (.get ?_)) fun v' hv hs => ?_)
  · rw [hv.tree]
    rcases hk : t.lookup (d, n) with _ | ⟨identity, links, bytes⟩ | _
    · exact herr _ _ hv (fun _ _ _ h => by rw [hk] at h; cases h)
    · exact hok _ _ _ _ hk hv
    · exact herr _ _ hv (fun _ _ _ h => by rw [hk] at h; cases h)
  · exact herr _ _ hv fun _ _ _ _ => hs

theorem openDirectoryChild_ends {Q : Nat → Volume → Prop}
    (hok : ∀ v' identity, t.lookup (d, n) = some (.directory identity) →
      v₀.Reaches t v' → Q identity v')
    (herr : ∀ e v', v₀.Reaches t v' →
      (∀ identity, t.lookup (d, n) = some (.directory identity) → v₀.Struck site v') → E e v') :
    Ends (openDirectoryChildNofollow site d n) v Q E := by
  refine .bind (strike_ends hv (fun v' hv => .bind (.get ?_)) fun v' hv hs => ?_)
  · rw [hv.tree]
    rcases hk : t.lookup (d, n) with _ | _ | identity
    · exact herr _ _ hv (fun _ h => by rw [hk] at h; cases h)
    · exact herr _ _ hv (fun _ h => by rw [hk] at h; cases h)
    · exact hok _ _ hk hv
  · exact herr _ _ hv fun _ _ => hs

theorem createNode_ends {Q : Nat → Volume → Prop} {node : Nat → Node}
    (hok : ∀ v' identity, t.lookup (d, n) = none → v₀.nextIdentity ≤ identity →
      identity < v'.nextIdentity → v₀.Reaches (t.insert (d, n) (node identity)) v' → Q identity v')
    (herr : ∀ e v', v₀.Reaches t v' → E e v') : Ends (createNode site d n node) v Q E := by
  refine .bind (strike_ends hv (fun v' hv => .bind (.get ?_)) fun v' hv _ => herr _ _ hv)
  by_cases hk : (v'.tree.lookup (d, n)).isSome = true
  · rw [if_pos hk]
    exact herr _ _ hv
  · rw [if_neg hk]
    rw [hv.tree] at hk
    refine .bind (.modify (.pure ?_))
    refine hok _ _ (not_isSome_iff_eq_none.mp hk) hv.identity (Nat.lt_succ_self _) ?_
    exact ⟨by rw [hv.tree], hv.identity.trans (Nat.le_succ _), hv.serial, hv.fault⟩

theorem setTree_ends {f : Tree → Tree} (h : ∀ v', v₀.Reaches (f t) v' → Q () v') : Ends (setTree f) v Q F :=
  h _ ⟨congrArg f hv.tree, hv.identity, hv.serial, hv.fault⟩

theorem renameChildAt_ends
    (hok : ∀ v' node, t.lookup (d, n) = some node → t.lookup (d, n') = none →
      v₀.Reaches (t.moved d n n' node) v' → Q () v')
    (herr : ∀ e v', v₀.Reaches t v' → ((t.lookup (d, n)).isSome → t.lookup (d, n') = none →
        v₀.Struck ⟨place, .rename⟩ v') → E e v') : Ends (renameChildAtNoReplace place d n n') v Q E := by
  refine .bind (strike_ends hv (fun v' hv => .bind (.get ?_))
    fun v' hv hs => herr _ _ hv fun _ _ => hs)
  rw [hv.tree]
  rcases hk : t.lookup (d, n) with _ | node
  · refine herr _ _ hv fun h => ?_
    rw [hk] at h
    cases h
  · dsimp only
    by_cases hfree : (t.lookup (d, n')).isSome = true
    · rw [if_pos hfree]
      refine herr _ _ hv fun _ h => ?_
      rw [h] at hfree
      cases hfree
    · rw [if_neg hfree]
      exact setTree_ends hv fun _ => hok _ _ hk (not_isSome_iff_eq_none.mp hfree)

omit hv

/-- What a rename bound to an identity can be stopped by when its names are as expected. -/
def Volume.RenameStruck (v : Volume) (place : Place) (v' : Volume) : Prop :=
  v.Struck ⟨place, .inspect⟩ v' ∨ v.Struck ⟨place, .rename⟩ v'

theorem Volume.Struck.ne_none (h : v.Struck site v') : v.fault ≠ none := by
  obtain ⟨⟨n, hn⟩, -⟩ := h
  rw [hn]
  exact some_ne_none _

theorem Volume.RenameStruck.ne_none (h : v.RenameStruck place v') : v.fault ≠ none :=
  h.elim Struck.ne_none Struck.ne_none

include hv

theorem renameRegular_ends
    (hok : ∀ v' links bytes, t.lookup (d, n) = some (.file identity links bytes) →
      t.lookup (d, n') = none → v₀.Reaches (t.moved d n n' (.file identity links bytes)) v' →
      Q () v')
    (herr : ∀ e v', v₀.Reaches t v' →
      (∀ links bytes, t.lookup (d, n) = some (.file identity links bytes) →
        t.lookup (d, n') = none → v₀.RenameStruck place v') → E e v') :
    Ends (renameIdentityBoundRegularChildNoReplace place d n identity n') v Q E := by
  refine .bind (openRegularChild_ends hv ?_ ?_)
  · intro v₁ found links bytes hk hv₁
    refine .bind (.ensure (fun heq => ?_) fun hne => ?_)
    · subst heq
      refine renameChildAt_ends hv₁ ?_ ?_
      · intro v₂ node hnode hfree hv₂
        rw [hk] at hnode
        cases hnode
        exact hok _ _ _ hk hfree hv₂
      · intro e v₂ hv₂ hs
        exact herr _ _ hv₂ fun _ _ _ hfree => .inr (hs (by rw [hk]; rfl) hfree)
    · refine herr _ _ hv₁ fun links' bytes' hk' _ => ?_
      rw [hk] at hk'
      cases hk'
      exact absurd rfl hne
  · intro e v₁ hv₁ hs
    exact herr _ _ hv₁ fun links bytes hk _ => .inl (hs _ _ _ hk)

theorem renameDirectory_ends (hok : ∀ v', t.lookup (d, n) = some (.directory identity) →
      t.lookup (d, n') = none → v₀.Reaches (t.moved d n n' (.directory identity)) v' → Q () v')
    (herr : ∀ e v', v₀.Reaches t v' → (t.lookup (d, n) = some (.directory identity) →
        t.lookup (d, n') = none → v₀.RenameStruck place v') → E e v') :
    Ends (renameIdentityBoundDirectoryChildNoReplace place d n identity n') v Q E := by
  refine .bind (openDirectoryChild_ends hv ?_ ?_)
  · intro v₁ found hk hv₁
    refine .bind (.ensure (fun heq => ?_) fun hne => ?_)
    · subst heq
      refine renameChildAt_ends hv₁ ?_ ?_
      · intro v₂ node hnode hfree hv₂
        rw [hk] at hnode
        cases hnode
        exact hok _ hk hfree hv₂
      · intro e v₂ hv₂ hs
        exact herr _ _ hv₂ fun _ hfree => .inr (hs (by rw [hk]; rfl) hfree)
    · refine herr _ _ hv₁ fun hk' _ => ?_
      rw [hk] at hk'
      cases hk'
      exact absurd rfl hne
  · intro e v₁ hv₁ hs
    exact herr _ _ hv₁ fun hk _ => .inl (hs _ hk)

theorem unlinkFile_ends (hk : t.lookup (d, n) = some (.file identity links bytes))
    (hok : ∀ v', v₀.Reaches (t.erase (d, n)) v' → Q () v')
    (herr : ∀ e v', v₀.Reaches t v' → v₀.Struck ⟨place, .unlink⟩ v' → E e v') :
    Ends (unlinkFile place d n) v Q E := by
  refine .bind (strike_ends hv (fun v' hv => .bind (.get ?_)) fun v' hv hs => herr _ _ hv hs)
  rw [hv.tree, hk]
  exact setTree_ends hv hok

theorem unlinkDirectory_ends (hk : t.lookup (d, n) = some (.directory identity))
    (hok : ∀ v', v₀.Reaches (t.erase (d, n)) v' → Q () v')
    (herr : ∀ e v', v₀.Reaches t v' →
      (t.isEmptyDirectory identity = true → v₀.Struck ⟨place, .unlink⟩ v') → E e v') :
    Ends (unlinkDirectory place d n) v Q E := by
  refine .bind (strike_ends hv (fun v' hv => .bind (.get ?_))
    fun v' hv hs => herr _ _ hv fun _ => hs)
  rw [hv.tree, hk]
  dsimp only
  by_cases hempty : t.isEmptyDirectory identity = true
  · rw [if_pos hempty]
    exact setTree_ends hv hok
  · rw [if_neg hempty]
    exact herr _ _ hv fun h => absurd h hempty

end Later

/-! ## Trees -/

section Trees

variable {node node' : Node}

theorem Tree.erase_moved (hfree : t.lookup (d, n') = none) :
    (t.moved d n n' node).erase (d, n') = t.erase (d, n) := by
  refine ext_lookup fun k => ?_
  grind

theorem Tree.moved_back (hk : t.lookup (d, n) = some node) (hfree : t.lookup (d, n') = none) :
    (t.moved d n n' node).moved d n' n node = t := by
  refine ext_lookup fun k => ?_
  grind

theorem Tree.erase_insert {k : Key} (hfree : t.lookup k = none) : (t.insert k node).erase k = t := by
  refine ext_lookup fun k' => ?_
  grind

theorem Tree.moved_insert (hfree : t.lookup (d, n) = none) :
    moved (t.insert (d, n) node') d n n' node = t.insert (d, n') node := by
  refine ext_lookup fun k => ?_
  grind

end Trees

/-! ## Regular files -/

section Later

variable {v₀ : Volume} (hv : v₀.Reaches t v)
include hv

/-- On a calm volume nothing stops a removal once its name leads to the expected file. -/
theorem removeIdentityBoundRegular_ends
    (hs : v.Sound) (hc : v₀.Calm) (hk : t.lookup (d, n) = some (.file identity links bytes))
    (hok : ∀ v', v₀.Reaches (t.erase (d, n)) v' → Q () v') :
    Ends (removeIdentityBoundRegularChild d n identity) v Q E := by
  have hfree : t.lookup (d, .artifact .cleanup v.nextSerial) = none :=
    hv.tree ▸ hs.fresh_name le_rfl
  refine .bind (drawName_ends fun v₁ hv₁ _ => .bind (renameRegular_ends (hv.stay hv₁) ?_ ?_))
  · intro v₂ links' bytes' hk' _ hv₂
    refine .bind (openRegularChild_ends hv₂ ?_ ?_)
    · intro v₃ found _ _ hfound hv₃
      rw [lookup_moved_self] at hfound
      cases hfound
      rw [if_pos rfl]
      refine unlinkFile_ends hv₃ lookup_moved_self ?_ ?_
      · intro v₄ hv₄
        rw [erase_moved hfree] at hv₄
        exact hok _ hv₄
      · intro _ v₄ _ hstruck
        exact (hc.not_struck rfl hstruck).elim
    · intro _ v₃ _ hstruck
      exact (hc.not_struck rfl (hstruck _ _ _ lookup_moved_self)).elim
  · intro _ v₂ _ hstruck
    rcases hstruck _ _ hk hfree with h | h <;> exact (hc.not_struck rfl h).elim

theorem writeAll_ends {old : Bytes} (hk : t.lookup (d, n) = some (.file identity links old))
    (hok : ∀ v', v₀.Reaches (t.insert (d, n) (.file identity links bytes)) v' → Q () v')
    (herr : ∀ e v', v₀.Reaches t v' → E e v') : Ends (writeAll d n identity bytes) v Q E := by
  refine .bind (strike_ends hv (fun v' hv => setTree_ends hv fun v'' hv'' => ?_)
    fun v' hv _ => herr _ _ hv)
  rw [hk] at hv''
  dsimp only at hv''
  rw [if_pos rfl] at hv''
  exact hok _ hv''

variable {self : Directory}

/-- A rename that is observed where the observation does not fail: an error means that nothing
moved. -/
theorem moveRegularObserved_ends {Q : MoveOutcome → Volume → Prop}
    {file : RegularFile} (hopen : ∀ m, v₀.fault ≠ some (⟨place, .openRenamed⟩, m))
    (hok : ∀ v' links bytes,
      t.lookup (self.identity, n) = some (.file file.identity links bytes) →
      t.lookup (self.identity, n') = none →
      v₀.Reaches (t.moved self.identity n n' (.file file.identity links bytes)) v' →
      Q (.expected ⟨self, n', file.identity⟩) v')
    (herr : ∀ e v', v₀.Reaches t v' →
      (∀ links bytes, t.lookup (self.identity, n) = some (.file file.identity links bytes) →
        t.lookup (self.identity, n') = none → v₀.fault ≠ none) → E e v') :
    Ends (self.moveRegularChildNoReplaceObserved place n file n') v Q E := by
  refine .bind (renameRegular_ends hv ?_ ?_)
  · intro v₁ links bytes hk hfree hv₁
    refine .bind (openRegularChild_ends hv₁ ?_ ?_)
    · intro v₂ found _ _ hfound hv₂
      rw [lookup_moved_self] at hfound
      cases hfound
      rw [if_pos rfl]
      exact hok _ _ _ hk hfree hv₂
    · intro _ v₂ _ hstruck
      obtain ⟨⟨m, hm⟩, -⟩ := hstruck _ _ _ lookup_moved_self
      exact absurd hm (hopen m)
  · intro e v₁ hv₁ hstruck
    exact herr e v₁ hv₁ fun links bytes hk hfree => (hstruck links bytes hk hfree).ne_none

end Later

variable {self : Directory} {v₀ : Volume}

/-- The planned file stands under its name. -/
structure Published (v : Volume) (owner : Directory) (name : Name) (bytes : Bytes)
    (file : RegularFile) (v' : Volume) : Prop where
  parent : file.parent = owner
  named : file.name = name
  from_new : v.nextIdentity ≤ file.identity
  to_new : file.identity < v'.nextIdentity
  free : v.tree.lookup (owner.identity, name) = none
  reaches : v.Reaches (v.tree.insert (owner.identity, name) (.file file.identity 1 bytes)) v'

/-- A publication either changed nothing or left the planned file, and its error tells which. -/
theorem createRegular_ends {Q : RegularFile → Volume → Prop} {E : PublicationError → Volume → Prop}
    {stageName destination : Name} (hv : v₀.Reaches v₀.tree v) (hs : v₀.Sound)
    (hc : v₀.Calm) (hd : self.identity < v₀.nextIdentity)
    (hstage : v₀.tree.lookup (self.identity, stageName) = none)
    (hdrawn : ∀ kind serial, stageName = .artifact kind serial → serial < v.nextSerial)
    (hok : ∀ file v', Published v₀ self destination bytes file v' → Q file v')
    (hbefore : ∀ e v', v₀.Reaches v₀.tree v' → E (.beforeRename e) v')
    (hafter : ∀ e file v', Published v₀ self destination bytes file v' → E (.afterRename e file) v') :
    Ends (self.createRegularChildAtomically stageName destination bytes) v Q E := by
  refine .bind (.mapError (createNode_ends hv.here ?_
    fun e v' hv' => hbefore e v' (hv.trans hv')))
  intro v₁ identity _ hfrom hto hv₁
  have hnew := hv.trans hv₁
  have hc₁ := hc.reaches hnew
  -- a stage that holds any bytes is removed again
  have hremove : ∀ e v₃ old,
      v₁.Reaches (v₀.tree.insert (self.identity, stageName) (.file identity 1 old)) v₃ →
      Ends (do
        (removeIdentityBoundRegularChild self.identity stageName identity).ignore
        throw (.beforeRename e) : Call Volume PublicationError RegularFile) v₃ Q E := by
    intro e v₃ old hv₃
    have hsound₃ : v₃.Sound := by
      refine @Sound.insert v₀ v₃ hs (self.identity, stageName) (.file identity 1 old)
        ?_ (hv.identity.trans hfrom) ?_ ?_ (hnew.trans hv₃)
      · exact hd.trans_le (hnew.identity.trans hv₃.identity)
      · exact hto.trans_le hv₃.identity
      · intro kind serial h
        exact (hdrawn kind serial h).trans_le (hv₁.serial.trans hv₃.serial)
    refine .bind (.ignore (removeIdentityBoundRegular_ends hv₃ hsound₃ hc₁ (lookup_insert _)
      fun v₄ hv₄ => .throw ?_))
    rw [erase_insert hstage] at hv₄
    exact hbefore e v₄ (hnew.trans hv₄)
  refine .bind (strike_ends hv₁.here ?_
    fun v' _ hstruck => (hc₁.not_struck rfl hstruck).elim)
  intro v₂ hv₂
  refine .bind (.reify (.bind (writeAll_ends hv₂ (lookup_insert _) ?_
    fun e v₃ hv₃ => hremove e v₃ [] hv₃)))
  intro v₃ hv₃
  rw [insert_insert] at hv₃
  refine strike_ends hv₃ ?_ fun v₄ hv₄ _ => hremove _ v₄ bytes hv₄
  intro v₄ hv₄
  refine .bind (.reify (moveRegularObserved_ends hv₄ (hc₁.ne_fault rfl) ?_
    fun e v₅ hv₅ _ => hremove e v₅ bytes hv₅))
  intro v₅ links' bytes' hk' hfree' hv₅
  rw [lookup_insert] at hk'
  cases hk'
  rw [moved_insert hstage] at hv₅
  have hpub : ∀ v₆, v₁.Reaches (v₀.tree.insert (self.identity, destination)
      (.file identity 1 bytes)) v₆ →
      Published v₀ self destination bytes ⟨self, destination, identity⟩ v₆ := by
    intro v₆ hv₆
    refine ⟨rfl, rfl, hv.identity.trans hfrom, hto.trans_le hv₆.identity, ?_, hnew.trans hv₆⟩
    grind
  refine .bind (.reify (.bind (strike_ends hv₅ ?_ ?_)))
  · intro v₆ hv₆
    refine .bind (openRegularChild_ends hv₆ ?_ ?_)
    · intro v₇ found _ _ hfound hv₇
      refine .ensure (fun _ => ?_) fun _ => ?_
      · exact hok _ _ (hpub v₇ hv₇)
      · exact hafter _ _ _ (hpub v₇ hv₇)
    · intro e v₇ hv₇ _
      exact hafter _ _ _ (hpub v₇ hv₇)
  · intro v₆ hv₆ _
    exact hafter _ _ _ (hpub v₆ hv₆)

/-- A displacement that fails moved nothing. -/
theorem displaceRegular_ends {Q : RegularFile → Volume → Prop}
    {expected : RegularFile} (hv : v₀.Reaches t v) (hc : v₀.Calm) (hok : ∀ v' links bytes,
      t.lookup (self.identity, n) = some (.file expected.identity links bytes) →
      t.lookup (self.identity, n') = none →
      v₀.Reaches (t.moved self.identity n n' (.file expected.identity links bytes)) v' →
      Q ⟨self, n', expected.identity⟩ v') (herr : ∀ e v', v₀.Reaches t v' → E e v') :
    Ends (self.displaceRegularChildNoReplace n expected n') v Q E := by
  refine .bind (.ensure (fun _ => ?_) fun _ => herr _ _ hv)
  refine .bind (moveRegularObserved_ends hv (hc.ne_fault rfl) ?_ fun e v' hv' _ => herr e v' hv')
  intro v' links bytes hk hfree hv'
  exact hok _ _ _ hk hfree hv'

theorem Volume.Reaches.quiet (h : v.Reaches t v') (hquiet : v.fault = none) : v'.fault = none := by
  rcases h.fault with hnone | ⟨_, _, _, hfrom, _⟩
  · exact hnone
  · rw [hquiet] at hfrom
    cases hfrom

/-- A displaced file goes back to a free name. -/
theorem restoreRegular_ends {displaced : RegularFile} (hquiet : v.fault = none)
    (hparent : displaced.parent.identity = self.identity)
    (hk : v.tree.lookup (self.identity, displaced.name) =
      some (.file displaced.identity links bytes)) (hfree : v.tree.lookup (self.identity, n) = none)
    (hok : ∀ v', v.Reaches (v.tree.moved self.identity displaced.name n
      (.file displaced.identity links bytes)) v' → Q () v') :
    Ends (self.restoreDisplacedRegularChildNoReplace displaced n) v Q E := by
  refine .bind (.ensure (fun _ => ?_) fun hne => absurd hparent hne)
  refine .bind (moveRegularObserved_ends .refl (fun m hm => by rw [hquiet] at hm; cases hm) ?_ ?_)
  · intro v₁ links' bytes' hk' _ hv₁
    rw [hk] at hk'
    cases hk'
    exact strike_ends hv₁ hok fun _ _ hs => absurd hquiet hs.ne_none
  · intro e v₁ _ hne
    exact absurd hquiet (hne _ _ hk hfree)

/-- The removal of a file of the transaction: on a calm volume it is done or nothing moved. -/
theorem removeRegularForApply_ends {file : RegularFile} {quarantineName : Name} (hv : v₀.Reaches v₀.tree v)
    (hs : v₀.Sound) (hc : v₀.Calm) (hfree : v₀.tree.lookup (file.parent.identity, quarantineName) = none)
    (hdrawn : ∀ kind serial, quarantineName = .artifact kind serial → serial < v.nextSerial)
    (hk : v₀.tree.lookup (file.parent.identity, file.name) = some (.file file.identity links bytes))
    (hok : ∀ v', v₀.Reaches (v₀.tree.erase (file.parent.identity, file.name)) v' → Q () v')
    (herr : ∀ e v', v₀.Reaches v₀.tree v' → v₀.fault ≠ none → E e v') :
    Ends (file.removeNamedIdentityRelativeForRetainedApply quarantineName) v Q E := by
  have hc' := hc.reaches hv
  refine .bind (renameRegular_ends hv.here ?_ fun e v₁ hv₁ hstruck =>
    herr e v₁ (hv.trans hv₁) fun hnone => (hstruck _ _ hk hfree).ne_none (hv.quiet hnone))
  intro v₁ links' bytes' hk' _ hv₁
  rw [hk] at hk'
  cases hk'
  refine .bind (.bind (openRegularChild_ends hv₁ ?_ ?_))
  · intro v₂ found _ _ hfound hv₂
    rw [lookup_moved_self] at hfound
    cases hfound
    rw [if_pos rfl]
    refine .bind (.bind (openRegularChild_ends hv₂ ?_ ?_))
    · intro v₃ found _ _ hfound hv₃
      rw [lookup_moved_self] at hfound
      cases hfound
      refine .ensure (fun _ => ?_) fun hne => absurd rfl hne
      have hsound : v₃.Sound :=
        hs.move hk (fun kind serial h => (hdrawn kind serial h).trans_le hv₃.serial)
          (hv.trans hv₃)
      refine removeIdentityBoundRegular_ends hv₃ hsound hc' lookup_moved_self fun v₄ hv₄ => ?_
      rw [erase_moved hfree] at hv₄
      exact hok _ (hv.trans hv₄)
    · intro _ v₃ _ hstruck
      exact (hc'.not_struck rfl (hstruck _ _ _ lookup_moved_self)).elim
  · intro _ v₂ _ hstruck
    exact (hc'.not_struck rfl (hstruck _ _ _ lookup_moved_self)).elim

/-! ## Directories -/

/-- A new directory stands under a name that was free. -/
structure Made (v : Volume) (owner : Directory) (name : Name) (directory : Directory)
    (v' : Volume) : Prop where
  shape : directory = .child owner name directory.identity
  from_new : v.nextIdentity ≤ directory.identity
  to_new : directory.identity < v'.nextIdentity
  free : v.tree.lookup (owner.identity, name) = none
  reaches : v.Reaches (v.tree.insert (owner.identity, name) (.directory directory.identity)) v'

theorem validateNamedIdentity_ends {directory : Directory} (hv : v₀.Reaches t v)
    (hok : ∀ v', v₀.Reaches t v' → directory.namedIdentityMatches t = true → Q () v')
    (herr : ∀ e v', v₀.Reaches t v' →
      (directory.namedIdentityMatches t = true → v₀.Struck site v') → E e v') :
    Ends (directory.validateNamedIdentity site) v Q E := by
  refine .bind (strike_ends hv (fun v' hv => .bind (.get ?_))
    fun v' hv hs => herr _ _ hv fun _ => hs)
  rw [hv.tree]
  exact .ensure (fun h => hok _ hv h) fun hne => herr _ _ hv fun h => absurd h hne

@[simp] theorem Directory.identity_child : (child self n identity).identity = identity := rfl

theorem createDirectory_ends {Q : Directory → Volume → Prop}
    {E : DirectoryPublicationError → Volume → Prop} {privateName destination : Name}
    (hv : v₀.Reaches v₀.tree v) (hc : v₀.Calm) (hfree : v₀.tree.lookup (self.identity, privateName) = none)
    (hok : ∀ directory v', Made v₀ self destination directory v' →
      directory.namedIdentityMatches v'.tree = true → Q directory v')
    (hbefore : ∀ e v', v₀.Reaches v₀.tree v' → E (.withoutArtifact e) v')
    (hafter : ∀ e directory name published v',
      (name = destination ∨
        name = privateName ∧ published = false ∧ v.nextSerial ≤ v'.nextSerial) →
      Made v₀ self name directory v' → E (.withArtifact e directory name published) v') :
    Ends (self.createDirectoryChildAtomically privateName destination) v Q E := by
  refine .bind (.mapError (.bind (.bind (createNode_ends hv.here ?_
    fun e v' hv' => hbefore e v' (hv.trans hv')))))
  intro v₁ identity _ hfrom hto hv₁
  have hnew := hv.trans hv₁
  have hc₁ := hc.reaches hnew
  have hmade : ∀ {v₂ name}, v₀.tree.lookup (self.identity, name) = none →
      v₁.Reaches (v₀.tree.insert (self.identity, name) (.directory identity)) v₂ →
      Made v₀ self name (.child self name identity) v₂ :=
    fun hname hv₂ =>
      ⟨rfl, hv.identity.trans hfrom, hto.trans_le hv₂.identity, hname, hnew.trans hv₂⟩
  refine openDirectoryChild_ends hv₁.here ?_ ?_
  · intro v₂ found hfound hv₂
    rw [lookup_insert] at hfound
    cases hfound
    refine .bind (strike_ends hv₂ ?_ fun v' _ hstruck => (hc₁.not_struck rfl hstruck).elim)
    intro v₃ hv₃
    refine .bind (.reify (renameDirectory_ends hv₃ ?_ ?_))
    · intro v₄ _ hfree' hv₄
      rw [moved_insert hfree] at hv₄
      have hname : v₀.tree.lookup (self.identity, destination) = none := by
        grind
      refine .bind (.reify (.bind (openDirectoryChild_ends hv₄ ?_ ?_)))
      · intro v₅ found hfound hv₅
        rw [lookup_insert] at hfound
        cases hfound
        refine .pure ?_
        simp only [identity_child, if_true]
        refine .bind (.reify (.bind (strike_ends hv₅ ?_ ?_)))
        · intro v₆ hv₆
          refine validateNamedIdentity_ends hv₆ ?_ ?_
          · intro v₇ hv₇ hmatch
            refine hok _ _ (hmade hname hv₇) ?_
            rw [hv₇.tree]
            exact hmatch
          · intro e v₇ hv₇ _
            exact hafter _ _ _ _ _ (.inl rfl) (hmade hname hv₇)
        · intro v₆ hv₆ _
          exact hafter _ _ _ _ _ (.inl rfl) (hmade hname hv₆)
      · intro e v₅ hv₅ _
        exact hafter _ _ _ _ _ (.inl rfl) (hmade hname hv₅)
    · intro e v₄ hv₄ _
      refine .bind (.reify (.bind (openDirectoryChild_ends hv₄ ?_ ?_)))
      · intro v₅ found hfound hv₅
        rw [lookup_insert] at hfound
        cases hfound
        refine .bind (.ensure (fun _ => ?_) fun hne => absurd rfl hne)
        refine unlinkDirectory_ends hv₅ (lookup_insert _) ?_ ?_
        · intro v₆ hv₆
          rw [erase_insert hfree] at hv₆
          exact hbefore _ _ (hnew.trans hv₆)
        · intro e v₆ hv₆ _
          exact hafter _ _ _ _ _ (.inr ⟨rfl, rfl, hv₁.serial.trans hv₆.serial⟩) (hmade hfree hv₆)
      · intro e v₅ hv₅ _
        exact hafter _ _ _ _ _ (.inr ⟨rfl, rfl, hv₁.serial.trans hv₅.serial⟩) (hmade hfree hv₅)
  · intro _ v₂ _ hstruck
    exact (hc₁.not_struck rfl (hstruck _ (lookup_insert _))).elim

variable {v₀ : Volume} (hv : v₀.Reaches t v)
include hv

/-- A directory moved inside its parent, or an error that says whether it moved. -/
theorem moveDirectory_ends {Q : Directory → Volume → Prop}
    {E : DirectoryPublicationError → Volume → Prop} {expected : Directory}
    (hok : ∀ v', t.lookup (self.identity, n) = some (.directory expected.identity) →
      t.lookup (self.identity, n') = none →
      v₀.Reaches (t.moved self.identity n n' (.directory expected.identity)) v' →
      Q (.child self n' expected.identity) v')
    (hbefore : ∀ e v', v₀.Reaches t v' →
      (∀ parent, expected = .child parent n expected.identity → parent.identity = self.identity →
        t.lookup (self.identity, n) = some (.directory expected.identity) → n ≠ n' →
        t.lookup (self.identity, n') = none → v₀.fault ≠ none) → E (.withoutArtifact e) v')
    (hafter : ∀ e v', t.lookup (self.identity, n) = some (.directory expected.identity) →
      t.lookup (self.identity, n') = none →
      v₀.Reaches (t.moved self.identity n n' (.directory expected.identity)) v' →
      E (.withArtifact e (.child self n' expected.identity) n' true) v') :
    Ends (self.moveDirectoryChildNoReplaceObserved n expected n') v Q E := by
  rcases expected with ⟨path, identity⟩ | ⟨parent, name, identity⟩
  · exact hbefore _ _ hv fun parent h => by cases h
  refine .bind (.ensure (fun hname => ?_) fun hne => ?_)
  · obtain ⟨hparent, rfl⟩ := hname
    refine .bind (.ensure (fun hdistinct => ?_) fun hsame => ?_)
    · refine .bind (.mapError (renameDirectory_ends hv ?_ ?_))
      · intro v₁ hk hfree hv₁
        refine .bind (.mapError (.bind (openDirectoryChild_ends hv₁ ?_ ?_)))
        · intro v₂ found hfound hv₂
          rw [lookup_moved_self] at hfound
          cases hfound
          refine .pure ?_
          simp only [identity_child, if_true]
          refine .bind (.mapError (.bind (strike_ends hv₂ ?_ ?_)))
          · intro v₃ hv₃
            refine validateNamedIdentity_ends hv₃ ?_ ?_
            · intro v₄ hv₄ _
              exact hok _ hk hfree hv₄
            · intro e v₄ hv₄ _
              exact hafter _ _ hk hfree hv₄
          · intro v₃ hv₃ _
            exact hafter _ _ hk hfree hv₃
        · intro e v₂ hv₂ _
          exact hafter _ _ hk hfree hv₂
      · intro e v₁ hv₁ hstruck
        exact hbefore _ _ hv₁ fun _ _ _ hk _ hfree => (hstruck hk hfree).ne_none
    · exact hbefore _ _ hv fun _ _ _ _ hdistinct => absurd hdistinct hsame
  · refine hbefore _ _ hv fun parent' h hparent => ?_
    cases h
    exact absurd ⟨hparent, rfl⟩ hne

/-- The removal of an empty directory: on a calm volume it is done or nothing moved. -/
theorem removeEmptyForApply_ends {quarantineName : Name} (hc : v₀.Calm)
    (hfree : t.lookup (self.identity, quarantineName) = none)
    (hok : ∀ v', t.lookup (self.identity, n) = some (.directory identity) →
      v₀.Reaches (t.erase (self.identity, n)) v' → Q () v')
    (herr : ∀ e v', v₀.Reaches t v' →
      (t.lookup (self.identity, n) = some (.directory identity) →
        (t.moved self.identity n quarantineName (.directory identity)).isEmptyDirectory
          identity = true →
        self.namedIdentityMatches (t.moved self.identity n quarantineName
          (.directory identity)) = true → v₀.fault ≠ none) → E e v') :
    Ends ((child self n identity).removeEmptyNamedIdentityRelativeForRetainedApply
      quarantineName) v Q E := by
  refine .bind (renameDirectory_ends hv ?_ ?_)
  · intro v₁ hk _ hv₁
    refine .bind (.bind (openDirectoryChild_ends hv₁ ?_ ?_))
    · intro v₂ found hfound hv₂
      rw [lookup_moved_self] at hfound
      cases hfound
      refine .pure ?_
      simp only [identity_child, if_true]
      -- a directory that could not be removed goes back to its name
      have hrestore : ∀ e v₃,
          v₀.Reaches (t.moved self.identity n quarantineName (.directory identity)) v₃ →
          (((t.moved self.identity n quarantineName (.directory identity)).isEmptyDirectory
            identity = true →
          self.namedIdentityMatches (t.moved self.identity n quarantineName
            (.directory identity)) = true → v₀.fault ≠ none)) →
          Ends (do
            (renameIdentityBoundDirectoryChildNoReplace .directoryRestore self.identity
              quarantineName identity n).ignore
            throw e : Io Unit) v₃ Q E := by
        intro e v₃ hv₃ hwhy
        refine .bind (.ignore (renameDirectory_ends hv₃ ?_ ?_))
        · intro v₄ _ _ hv₄
          rw [moved_back hk hfree] at hv₄
          exact herr _ _ hv₄ fun _ => hwhy
        · intro _ v₄ _ hstruck
          have hname : (self.identity, n) ≠ (self.identity, quarantineName) := by
            intro heq
            rw [heq, hfree] at hk
            cases hk
          have hback : (t.moved self.identity n quarantineName (.directory identity)).lookup
              (self.identity, n) = none := by
            rw [lookup_moved, if_neg hname, if_pos rfl]
          rcases hstruck lookup_moved_self hback with h | h <;> exact (hc.not_struck rfl h).elim
      refine .bind (.reify (.bind (validateNamedIdentity_ends hv₂ ?_ ?_)))
      · intro v₃ hv₃ _
        refine .bind (openDirectoryChild_ends hv₃ ?_ ?_)
        · intro v₄ found hfound hv₄
          rw [lookup_moved_self] at hfound
          cases hfound
          refine .bind (.ensure (fun _ => ?_) fun hne => absurd rfl hne)
          refine unlinkDirectory_ends hv₄ lookup_moved_self ?_ ?_
          · intro v₅ hv₅
            rw [erase_moved hfree] at hv₅
            exact hok _ hk hv₅
          · intro e v₅ hv₅ hstruck
            exact hrestore e v₅ hv₅ fun hempty _ => (hstruck hempty).ne_none
        · intro e v₄ hv₄ hstruck
          exact hrestore e v₄ hv₄ fun _ _ => (hstruck _ lookup_moved_self).ne_none
      · intro e v₃ hv₃ hstruck
        refine hrestore e v₃ hv₃ fun _ hmatch => (hstruck ?_).ne_none
        simp only [namedIdentityMatches, hmatch, Bool.true_and, decide_eq_true_eq]
        exact lookup_moved_self
    · intro _ v₂ _ hstruck
      exact (hc.not_struck rfl (hstruck _ lookup_moved_self)).elim
  · intro e v₁ hv₁ hstruck
    exact herr e v₁ hv₁ fun hk _ _ => (hstruck hk hfree).ne_none

end Calls

end Unica.Workspace
