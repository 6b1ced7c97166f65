import Unica.Workspace.PublicationSpec
import Unica.Workspace.RetainedApply

/-!
# Ways through a tree

A directory of a sound tree is reached by one path from the top. A retained directory that
matches its names stays matched as long as the links on its way stay, and a way of names
that no transaction has drawn does not lead into a directory moved to a drawn name.
-/

namespace Unica.Workspace

open Lib ChildImage Tree List Bool Option Table

variable {v : Volume} {t t' : Tree} {d x y : Nat} {n : Name} {p q : List Name} {self : Directory}

namespace Tree

theorem resolve_append : t.resolve d (p ++ q) = (t.resolve d p).bind fun x => t.resolve x q := by
  induction p generalizing d with
  | nil => rfl
  | cons name rest ih =>
    simp only [cons_append, resolve]
    split
    · exact ih
    · rfl

theorem resolve_snoc : t.resolve d (p ++ [n]) = some y ↔
    ∃ x, t.resolve d p = some x ∧ t.lookup (x, n) = some (.directory y) := by
  rw [resolve_append, bind_eq_some_iff]
  refine exists_congr fun x => and_congr_right fun _ => ?_
  simp only [resolve]
  split
  · rename_i child hchild
    rw [hchild]
    simp
  · rename_i hno
    refine ⟨fun h => (nomatch h), fun h => (hno y h).elim⟩

/-- One path leads to a directory. -/
theorem resolve_unique (hs : v.Sound) (hp : v.tree.resolve top p = some x)
    (hq : v.tree.resolve top q = some x) : p = q := by
  induction p using reverseRecOn generalizing q x with
  | nil =>
    cases hp
    rcases eq_nil_or_concat q with rfl | ⟨q', n, rfl⟩
    · rfl
    · obtain ⟨y, -, hy⟩ := resolve_snoc.mp (by rwa [concat_eq_append] at hq)
      exact (hs.unlinked _ hy).elim
  | append_singleton p' n ih =>
    obtain ⟨y, hy, hlink⟩ := resolve_snoc.mp hp
    rcases eq_nil_or_concat q with rfl | ⟨q', m, rfl⟩
    · cases hq
      exact (hs.unlinked _ hlink).elim
    · rw [concat_eq_append] at hq ⊢
      obtain ⟨z, hz, hlink'⟩ := resolve_snoc.mp hq
      cases hs.unique _ _ _ hlink hlink'
      rw [ih hy hz]

/-- What is reached is linked, unless it is the top. -/
theorem resolve_linked (hp : t.resolve top p = some x) :
    x = top ∨ ∃ k, t.lookup k = some (.directory x) := by
  rcases eq_nil_or_concat p with rfl | ⟨p', n, rfl⟩
  · cases hp
    exact .inl rfl
  · rw [concat_eq_append] at hp
    obtain ⟨y, -, hlink⟩ := resolve_snoc.mp hp
    exact .inr ⟨_, hlink⟩

/-- The walk survives where its links do. -/
theorem resolve_of_links (hp : t.resolve top p = some x)
    (hlinks : ∀ p' n y z, p' ++ [n] <+: p → t.resolve top p' = some y →
      t.lookup (y, n) = some (.directory z) → t'.lookup (y, n) = some (.directory z)) :
    t'.resolve top p = some x := by
  induction p using reverseRecOn generalizing x with
  | nil => exact hp
  | append_singleton p' n ih =>
    obtain ⟨y, hy, hlink⟩ := resolve_snoc.mp hp
    refine resolve_snoc.mpr ⟨y, ?_, hlinks p' n y x (prefix_refl _) hy hlink⟩
    exact ih hy fun p'' m y' z' hpre => hlinks p'' m y' z' (hpre.trans (prefix_append _ _))

end Tree

namespace Directory

variable {self parent : Directory} {identity : Nat}

/-- The names from the top. -/
def fullPath : Directory → List Name
  | root path _ => path
  | child parent name _ => parent.fullPath ++ [name]

theorem matches_child : (child parent n identity).namedIdentityMatches t = true ↔
    parent.namedIdentityMatches t = true ∧
      t.lookup (parent.identity, n) = some (.directory identity) := by
  simp [namedIdentityMatches]

theorem matches_resolve (h : self.namedIdentityMatches t = true) :
    t.resolve top self.fullPath = some self.identity := by
  induction self with
  | root path identity => exact of_decide_eq_true h
  | child parent name identity ih =>
    obtain ⟨hparent, hlink⟩ := matches_child.mp h
    exact resolve_snoc.mpr ⟨_, ih hparent, hlink⟩

theorem matches_of_links (h : self.namedIdentityMatches t = true)
    (hlinks : ∀ p' n y z, p' ++ [n] <+: self.fullPath → t.resolve top p' = some y →
      t.lookup (y, n) = some (.directory z) → t'.lookup (y, n) = some (.directory z)) :
    self.namedIdentityMatches t' = true := by
  induction self with
  | root path identity =>
    exact decide_eq_true (resolve_of_links (of_decide_eq_true h) hlinks)
  | child parent name identity ih =>
    obtain ⟨hparent, hlink⟩ := matches_child.mp h
    refine matches_child.mpr ⟨ih hparent ?_, ?_⟩
    · intro p' m y z hpre
      exact hlinks p' m y z (hpre.trans (prefix_append _ _))
    · exact hlinks _ _ _ _ (prefix_refl _) (matches_resolve hparent) hlink

theorem identity_lt (hs : v.Sound) (h : self.namedIdentityMatches v.tree = true) :
    self.identity < v.nextIdentity := by
  rcases resolve_linked (matches_resolve h) with htop | ⟨k, hk⟩
  · rw [htop]
    exact hs.room
  · exact hs.identities k _ hk

end Directory

/-- A directory does not stand on its own way. -/
theorem Directory.not_on_own_way (hs : v.Sound)
    (hm : self.namedIdentityMatches v.tree = true) (hpre : p ++ [n] <+: self.fullPath) :
    v.tree.resolve top p ≠ some self.identity := by
  intro hp
  have heq := resolve_unique hs hp (matches_resolve hm)
  have hlen := hpre.length_le
  rw [heq, length_append, length_singleton] at hlen
  omega

/-- No directory link is lost. -/
def KeepsLinks (t t' : Tree) : Prop :=
  ∀ k i, t.lookup k = some (.directory i) → t'.lookup k = some (.directory i)

theorem KeepsLinks.resolve (h : KeepsLinks t t') (hp : t.resolve d p = some x) :
    t'.resolve d p = some x := by
  induction p generalizing d with
  | nil => exact hp
  | cons name rest ih =>
    simp only [resolve] at hp ⊢
    split at hp
    · rename_i child hchild
      rw [h _ _ hchild]
      exact ih hp
    · cases hp

theorem KeepsLinks.refl : KeepsLinks t t := fun _ _ h => h

theorem KeepsLinks.matches (h : KeepsLinks t t')
    (hm : self.namedIdentityMatches t = true) : self.namedIdentityMatches t' = true :=
  Directory.matches_of_links hm fun _ _ _ _ _ _ hlink => h _ _ hlink

/-- Moving a child away keeps its parent matched. -/
theorem Directory.matches_moved {n' : Name} {node : Node} (hs : v.Sound)
    (hm : self.namedIdentityMatches v.tree = true) :
    self.namedIdentityMatches (v.tree.moved self.identity n n' node) = true := by
  refine matches_of_links hm fun p' m y z hpre hy hlink => ?_
  have hother : y ≠ self.identity := by
    rintro rfl
    exact not_on_own_way hs hm hpre hy
  grind

/-! ## Names that nobody has drawn -/

/-- A name that was known before the serial was reached. -/
def Name.settled (serial : Nat) : Name → Bool
  | .plain _ => true
  | .artifact _ s => s < serial

theorem Name.not_settled {serial s : Nat} {kind : ArtifactKind} (h : serial ≤ s) :
    (artifact kind s).settled serial = false :=
  decide_eq_false (by omega)

/-! ## Images of removed directories -/

mutual

/-- The directories an image knows. -/
def ChildImage.directories : ChildImage → List Nat
  | .directory identity children => identity :: allDirectories children
  | .file .. => []

def ChildImage.allDirectories : List (Name × ChildImage) → List Nat
  | [] => []
  | (_, child) :: rest => child.directories ++ allDirectories rest

end

mutual

/-- The names an image knows. -/
def ChildImage.names : ChildImage → List Name
  | .directory _ children => allNames children
  | .file .. => []

def ChildImage.allNames : List (Name × ChildImage) → List Name
  | [] => []
  | (name, child) :: rest => name :: (child.names ++ allNames rest)

end

namespace DirectoryImage

variable {image : DirectoryImage}

def directories (image : DirectoryImage) : List Nat :=
  image.identity :: allDirectories image.children

def names (image : DirectoryImage) : List Name := allNames image.children

end DirectoryImage

theorem Tree.holdsOnly_iff {names : List Name} :
    t.holdsOnly d names = true ↔ ∀ n, (t.lookup (d, n)).isSome → n ∈ names := by
  unfold holdsOnly
  rw [not_eq_true', eq_false_iff, ne_eq, existsValue_iff]
  constructor
  · intro h n hn
    by_contra hno
    obtain ⟨node, hnode⟩ := isSome_iff_exists.mp hn
    exact h ⟨(d, n), node, hnode, rfl, hno⟩
  · rintro h ⟨⟨d', n⟩, node, hnode, rfl, hno⟩
    exact hno (h n (by rw [hnode]; rfl))

theorem Tree.isEmptyDirectory_iff : t.isEmptyDirectory d = true ↔ ∀ n, t.lookup (d, n) = none := by
  unfold isEmptyDirectory
  rw [not_eq_true', eq_false_iff, ne_eq, existsValue_iff]
  constructor
  · intro h n
    by_contra hno
    obtain ⟨node, hnode⟩ := ne_none_iff_exists'.mp hno
    exact h ⟨(d, n), node, hnode, rfl⟩
  · rintro h ⟨⟨d', n⟩, node, hnode, rfl⟩
    rw [h n] at hnode
    cases hnode

theorem ChildImage.mem_allNames {children : List (Name × ChildImage)}
    (h : n ∈ children.map (·.1)) : n ∈ allNames children := by
  induction children with
  | nil => cases h
  | cons head rest ih =>
    rcases mem_cons.mp h with rfl | h
    · exact mem_cons_self
    · exact mem_cons_of_mem _ (mem_append_right _ (ih h))

mutual

/-- What the image of a child says of its directories: their names are its names, and they
hang below it. -/
theorem ChildImage.stands_inside {child : ChildImage} {node : Option Node}
    (h : child.stands t node = true) (hx : x ∈ child.directories) :
    (∀ n, (t.lookup (x, n)).isSome → n ∈ child.names) ∧
      (node = some (.directory x) ∨ ∃ y ∈ child.directories, ∃ n,
        t.lookup (y, n) = some (.directory x)) := by
  cases child with
  | file identity bytes => cases hx
  | directory identity children =>
    simp only [stands, and_eq_true, decide_eq_true_eq] at h
    obtain ⟨⟨hnode, honly⟩, hchildren⟩ := h
    rcases mem_cons.mp hx with rfl | hx
    · refine ⟨fun n hn => ?_, .inl hnode⟩
      exact mem_allNames (holdsOnly_iff.mp honly n hn)
    · obtain ⟨hnames, hlink⟩ := childrenStand_inside hchildren hx
      refine ⟨hnames, .inr ?_⟩
      rcases hlink with ⟨n, hn⟩ | ⟨y, hy, n, hn⟩
      · exact ⟨identity, mem_cons_self, n, hn⟩
      · exact ⟨y, mem_cons_of_mem _ hy, n, hn⟩

theorem ChildImage.childrenStand_inside {parent : Nat} {children : List (Name × ChildImage)}
    (h : childrenStand t parent children = true) (hx : x ∈ allDirectories children) :
    (∀ n, (t.lookup (x, n)).isSome → n ∈ allNames children) ∧
      ((∃ n, t.lookup (parent, n) = some (.directory x)) ∨
        ∃ y ∈ allDirectories children, ∃ n, t.lookup (y, n) = some (.directory x)) := by
  match children, h, hx with
  | [], _, hx => cases hx
  | (name, child) :: rest, h, hx =>
    simp only [childrenStand, and_eq_true] at h
    simp only [allDirectories, mem_append] at hx
    rcases hx with hx | hx
    · obtain ⟨hnames, hlink⟩ := stands_inside h.1 hx
      refine ⟨fun n hn => mem_cons_of_mem _ (mem_append_left _ (hnames n hn)), ?_⟩
      rcases hlink with hnode | ⟨y, hy, n, hn⟩
      · exact .inl ⟨name, hnode⟩
      · exact .inr ⟨y, mem_append_left _ hy, n, hn⟩
    · obtain ⟨hnames, hlink⟩ := childrenStand_inside h.2 hx
      refine ⟨fun n hn => mem_cons_of_mem _ (mem_append_right _ (hnames n hn)), ?_⟩
      rcases hlink with hnode | ⟨y, hy, n, hn⟩
      · exact .inl hnode
      · exact .inr ⟨y, mem_append_right _ hy, n, hn⟩

end

mutual

/-- An image looks at its own directories only. -/
theorem ChildImage.stands_of_agree {child : ChildImage} {node : Option Node}
    (h : child.stands t node = true)
    (hagree : ∀ x ∈ child.directories, ∀ n, t'.lookup (x, n) = t.lookup (x, n)) :
    child.stands t' node = true := by
  cases child with
  | file identity bytes => exact h
  | directory identity children =>
    simp only [stands, and_eq_true, decide_eq_true_eq] at h ⊢
    obtain ⟨⟨hnode, honly⟩, hchildren⟩ := h
    refine ⟨⟨hnode, holdsOnly_iff.mpr fun n hn => ?_⟩, ?_⟩
    · rw [hagree identity mem_cons_self n] at hn
      exact holdsOnly_iff.mp honly n hn
    · refine childrenStand_of_agree hchildren (hagree identity mem_cons_self) ?_
      exact fun x hx => hagree x (mem_cons_of_mem _ hx)

theorem ChildImage.childrenStand_of_agree {parent : Nat} {children : List (Name × ChildImage)}
    (h : childrenStand t parent children = true) (hself : ∀ n, t'.lookup (parent, n) = t.lookup (parent, n))
    (hagree : ∀ x ∈ allDirectories children, ∀ n, t'.lookup (x, n) = t.lookup (x, n)) :
    childrenStand t' parent children = true := by
  match children, h, hagree with
  | [], _, _ => rfl
  | (name, child) :: rest, h, hagree =>
    simp only [childrenStand, and_eq_true] at h ⊢
    rw [hself name]
    refine ⟨stands_of_agree h.1 fun x hx => hagree x (mem_append_left _ hx), ?_⟩
    exact childrenStand_of_agree h.2 hself fun x hx => hagree x (mem_append_right _ hx)

end

mutual

/-- What hangs below an image's directories is one of them. -/
theorem ChildImage.stands_closed {child : ChildImage} {node : Option Node}
    (h : child.stands t node = true) (hx : x ∈ child.directories)
    (hy : t.lookup (x, n) = some (.directory y)) : y ∈ child.directories := by
  cases child with
  | file identity bytes => cases hx
  | directory identity children =>
    simp only [stands, and_eq_true, decide_eq_true_eq] at h
    obtain ⟨⟨-, honly⟩, hchildren⟩ := h
    refine mem_cons_of_mem _ (childrenStand_closed hchildren honly ?_ hy)
    exact mem_cons.mp hx

theorem ChildImage.childrenStand_closed {parent : Nat} {children : List (Name × ChildImage)}
    (h : childrenStand t parent children = true) (honly : t.holdsOnly parent (children.map (·.1)) = true)
    (hx : x = parent ∨ x ∈ allDirectories children)
    (hy : t.lookup (x, n) = some (.directory y)) : y ∈ allDirectories children := by
  rcases hx with rfl | hx
  · refine childrenStand_names h ?_ hy
    exact holdsOnly_iff.mp honly n (by rw [hy]; rfl)
  · exact childrenStand_below h hx hy

/-- A child directory is one of the image's. -/
theorem ChildImage.childrenStand_names {parent : Nat} {children : List (Name × ChildImage)}
    (h : childrenStand t parent children = true) (hn : n ∈ children.map (·.1))
    (hy : t.lookup (parent, n) = some (.directory y)) : y ∈ allDirectories children := by
  match children, h, hn with
  | [], _, hn => cases hn
  | (name, child) :: rest, h, hn =>
    simp only [childrenStand, and_eq_true] at h
    rcases mem_cons.mp hn with rfl | hn
    · refine mem_append_left _ ?_
      rw [hy] at h
      cases child with
      | file identity bytes => simp [stands] at h
      | directory identity children =>
        simp only [stands, and_eq_true, decide_eq_true_eq, some.injEq,
          Node.directory.injEq] at h
        rw [h.1.1.1]
        exact mem_cons_self
    · exact mem_append_right _ (childrenStand_names h.2 hn hy)

theorem ChildImage.childrenStand_below {parent : Nat} {children : List (Name × ChildImage)}
    (h : childrenStand t parent children = true) (hx : x ∈ allDirectories children)
    (hy : t.lookup (x, n) = some (.directory y)) : y ∈ allDirectories children := by
  match children, h, hx with
  | [], _, hx => cases hx
  | (name, child) :: rest, h, hx =>
    simp only [childrenStand, and_eq_true] at h
    rcases mem_append.mp hx with hx | hx
    · exact mem_append_left _ (stands_closed h.1 hx hy)
    · exact mem_append_right _ (childrenStand_below h.2 hx hy)

end

namespace DirectoryImage

variable {image : DirectoryImage}

/-- A walk that starts inside stays inside. -/
theorem resolve_inside (h : image.stands t = true) (hd : d ∈ image.directories)
    (hp : t.resolve d p = some x) : x ∈ image.directories := by
  induction p generalizing d with
  | nil =>
    cases hp
    exact hd
  | cons name rest ih =>
    simp only [resolve] at hp
    split at hp
    · rename_i child hchild
      simp only [stands, and_eq_true] at h
      refine ih (mem_cons_of_mem _ ?_) hp
      exact childrenStand_closed h.2 h.1 (mem_cons.mp hd) hchild
    · cases hp

theorem stands_inside (h : image.stands t = true) (hx : x ∈ image.directories) :
    (∀ n, (t.lookup (x, n)).isSome → n ∈ image.names) ∧
      (x = image.identity ∨ ∃ y ∈ image.directories, ∃ n,
        t.lookup (y, n) = some (.directory x)) := by
  simp only [stands, and_eq_true] at h
  rcases mem_cons.mp hx with rfl | hx
  · exact ⟨fun n hn => mem_allNames (holdsOnly_iff.mp h.1 n hn), .inl rfl⟩
  · obtain ⟨hnames, hlink⟩ := childrenStand_inside h.2 hx
    refine ⟨hnames, .inr ?_⟩
    rcases hlink with ⟨n, hn⟩ | ⟨y, hy, n, hn⟩
    · exact ⟨image.identity, mem_cons_self, n, hn⟩
    · exact ⟨y, mem_cons_of_mem _ hy, n, hn⟩

theorem stands_of_agree (h : image.stands t = true)
    (hagree : ∀ x ∈ image.directories, ∀ n, t'.lookup (x, n) = t.lookup (x, n)) :
    image.stands t' = true := by
  simp only [stands, and_eq_true] at h ⊢
  refine ⟨holdsOnly_iff.mpr fun n hn => ?_, ?_⟩
  · rw [hagree _ mem_cons_self n] at hn
    exact holdsOnly_iff.mp h.1 n hn
  · exact childrenStand_of_agree h.2 (hagree _ mem_cons_self)
      fun x hx => hagree x (mem_cons_of_mem _ hx)

/-- A way that avoids the link to the image's directory does not enter it. -/
theorem not_inside (hs : v.Sound) (h : image.stands v.tree = true) {k : Key}
    (hlink : v.tree.lookup k = some (.directory image.identity)) (hp : v.tree.resolve top p = some x)
    (havoid : ∀ p', p' ++ [k.2] <+: p → v.tree.resolve top p' ≠ some k.1) : x ∉ image.directories := by
  induction p using reverseRecOn generalizing x with
  | nil =>
    cases hp
    intro hx
    obtain ⟨-, heq | ⟨y, -, n, hn⟩⟩ := image.stands_inside h hx
    · exact hs.unlinked k (by rw [hlink, ← heq])
    · exact hs.unlinked _ hn
  | append_singleton p' n ih =>
    obtain ⟨y, hy, hyx⟩ := resolve_snoc.mp hp
    have hout := ih hy fun p'' hpre => havoid p'' (hpre.trans (prefix_append _ _))
    intro hx
    obtain ⟨-, rfl | ⟨z, hz, m, hm⟩⟩ := image.stands_inside h hx
    · cases hs.unique _ _ _ hlink hyx
      exact havoid p' (prefix_refl _) hy
    · cases hs.unique _ _ _ hm hyx
      exact hout hz

end DirectoryImage

end Unica.Workspace
