import EntityStore.Entity
import Mathlib.Data.List.Nodup

set_option autoImplicit false

namespace EntityStore

abbrev Lineage := List (Entity × Option Entity)

namespace Lineage

def members (log : Lineage) : List Entity := log.map Prod.fst

def childrenOf (log : Lineage) (parent : Option Entity) : List Entity :=
  (log.filter fun entry => entry.2 = parent).map Prod.fst

def below (log : Lineage) : Nat → List Entity → List (Nat × Entity)
  | _, [] => []
  | position, e :: rest =>
    (log.childrenOf (some e)).map (Prod.mk position) ++ below log (position + 1) rest

def generation (log : Lineage) : Nat → List (Nat × Entity)
  | 0 => (log.childrenOf none).map (Prod.mk 0)
  | depth + 1 => log.below 0 ((log.generation depth).map Prod.snd)

-- The lineages that arise: nobody is inserted twice, and parents come before their children.
inductive Grown : Lineage → Prop where
  | nil : Grown []
  | root (log : Lineage) (e : Entity) (grown : Grown log) (fresh : e ∉ log.members) :
      Grown (log ++ [(e, none)])
  | child (log : Lineage) (e parent : Entity) (grown : Grown log) (fresh : e ∉ log.members)
      (known : parent ∈ log.members) : Grown (log ++ [(e, some parent)])

variable {log : Lineage} {e parent : Entity}

theorem members_snoc (log : Lineage) (e : Entity) (parent : Option Entity) :
    members (log ++ [(e, parent)]) = log.members ++ [e] := by
  simp [members]

theorem children_snoc (log : Lineage) (e : Entity) (parent other : Option Entity) :
    childrenOf (log ++ [(e, parent)]) other =
      log.childrenOf other ++ if parent = other then [e] else [] := by
  by_cases same : parent = other <;> simp [childrenOf, same]

theorem mem_children_iff (log : Lineage) (parent : Option Entity) (e : Entity) :
    e ∈ log.childrenOf parent ↔ (e, parent) ∈ log := by
  simp [childrenOf]

namespace Grown

theorem nodup (grown : Grown log) : log.members.Nodup := by
  induction grown with
  | nil => exact List.nodup_nil
  | root log e grown fresh ih | child log e parent grown fresh known ih =>
      rw [members_snoc]
      exact List.nodup_append.mpr ⟨ih, List.nodup_singleton e, fun a member b single same => by
        rw [List.mem_singleton] at single
        exact fresh (single ▸ same ▸ member)⟩

theorem known (grown : Grown log) (child : (e, some parent) ∈ log) : parent ∈ log.members := by
  induction grown with
  | nil => contradiction
  | root log other grown fresh ih =>
      rw [members_snoc]
      have old := (List.mem_append.mp child).resolve_right (by simp)
      exact List.mem_append_left _ (ih old)
  | child log other above grown fresh known ih =>
      rw [members_snoc]
      cases List.mem_append.mp child with
      | inl old => exact List.mem_append_left _ (ih old)
      | inr new =>
          obtain ⟨-, same⟩ := Prod.mk.inj (List.mem_singleton.mp new)
          exact List.mem_append_left _ (Option.some.inj same ▸ known)

theorem childless (grown : Grown log) (stranger : e ∉ log.members) : log.childrenOf (some e) = [] := by
  rw [List.eq_nil_iff_forall_not_mem]
  intro child member
  exact stranger (grown.known ((mem_children_iff log (some e) child).mp member))

theorem parent_unique (grown : Grown log) {first second : Option Entity} (one : (e, first) ∈ log)
    (other : (e, second) ∈ log) : first = second := by
  have same := List.inj_on_of_nodup_map grown.nodup one other rfl
  exact (Prod.mk.inj same).2

theorem nodup_children (grown : Grown log) (parent : Option Entity) : (log.childrenOf parent).Nodup :=
  grown.nodup.sublist (List.filter_sublist.map Prod.fst)

end Grown

section Below

theorem below_append (log : Lineage) (position : Nat) (front back : List Entity) :
    log.below position (front ++ back) =
      log.below position front ++ log.below (position + front.length) back := by
  induction front generalizing position with
  | nil => rfl
  | cons e rest ih =>
      rw [List.cons_append, below, ih, below, List.append_assoc, List.length_cons, Nat.add_right_comm,
        Nat.add_assoc position]

theorem below_succ (log : Lineage) (position : Nat) (es : List Entity) :
    log.below (position + 1) es = (log.below position es).map fun (i, e) => (i + 1, e) := by
  induction es generalizing position with
  | nil => rfl
  | cons e rest ih =>
      rw [below, below, List.map_append, List.map_map, ih]
      rfl

theorem mem_below_iff (log : Lineage) (position : Nat) (es : List Entity) (i : Nat) (e : Entity) :
    (i, e) ∈ log.below position es ↔
      position ≤ i ∧ ∃ parent, es[i - position]? = some parent ∧ (e, some parent) ∈ log := by
  induction es generalizing position with
  | nil => simp [below]
  | cons first rest ih =>
      rw [below, List.mem_append, ih, List.mem_map]
      constructor
      · rintro (⟨child, member, same⟩ | ⟨later, parent, found, listed⟩)
        · obtain ⟨rfl, rfl⟩ := Prod.mk.inj same
          exact ⟨Nat.le_refl _, first, by simp, (mem_children_iff log _ _).mp member⟩
        · refine ⟨by omega, parent, ?_, listed⟩
          rw [show i - position = i - (position + 1) + 1 by omega, List.getElem?_cons_succ]
          exact found
      · rintro ⟨later, parent, found, listed⟩
        by_cases here : i = position
        · subst here
          rw [Nat.sub_self, List.getElem?_cons_zero, Option.some.injEq] at found
          subst found
          exact Or.inl ⟨e, (mem_children_iff log _ _).mpr listed, rfl⟩
        · rw [show i - position = i - (position + 1) + 1 by omega, List.getElem?_cons_succ] at found
          exact Or.inr ⟨by omega, parent, found, listed⟩

theorem below_sorted (log : Lineage) (position : Nat) (es : List Entity) :
    ((log.below position es).map Prod.fst).Pairwise (· ≤ ·) := by
  induction es generalizing position with
  | nil => exact List.Pairwise.nil
  | cons first rest ih =>
      rw [below, List.map_append, List.pairwise_append]
      refine ⟨?_, ih (position + 1), ?_⟩
      · rw [List.map_map]
        exact List.pairwise_map.mpr (List.pairwise_of_forall fun _ _ => Nat.le_refl position)
      · intro i front j back
        obtain ⟨⟨j', e⟩, listed, rfl⟩ := List.mem_map.mp back
        obtain ⟨⟨i', child⟩, member, rfl⟩ := List.mem_map.mp front
        obtain ⟨_, _, same⟩ := List.mem_map.mp member
        have start := (Prod.mk.inj same).1
        have later := ((mem_below_iff log _ _ _ _).mp listed).1
        simp only
        omega

theorem below_at (log : Lineage) (start i : Nat) (es : List Entity) (found : es[i]? = some parent) :
    (log.below start es).filter (fun place => place.1 = start + i) =
      (log.childrenOf (some parent)).map (Prod.mk (start + i)) := by
  induction es generalizing start i with
  | nil => contradiction
  | cons first rest ih =>
      rw [below, List.filter_append, List.filter_map]
      cases i with
      | zero =>
          obtain rfl := Option.some.inj found
          have later : (log.below (start + 1) rest).filter (fun place => place.1 = start + 0) = [] := by
            refine List.filter_eq_nil_iff.mpr fun place member => ?_
            have bound := ((mem_below_iff log _ rest place.1 place.2).mp member).1
            rw [decide_eq_true_iff]
            omega
          rw [later, List.append_nil]
          simp [Function.comp_def]
      | succ i =>
          have found : rest[i]? = some parent := found
          rw [show start + (i + 1) = start + 1 + i by omega, ← ih (start + 1) i found]
          have other : start ≠ start + 1 + i := by omega
          simp [Function.comp_def, other]

theorem below_snoc (log : Lineage) (e : Entity) (parent : Option Entity) (position : Nat)
    (es : List Entity) (elsewhere : ∀ x ∈ es, parent ≠ some x) :
    below (log ++ [(e, parent)]) position es = log.below position es := by
  induction es generalizing position with
  | nil => rfl
  | cons first rest ih =>
      rw [below, children_snoc, if_neg (elsewhere first List.mem_cons_self), List.append_nil,
        ih _ fun x member => elsewhere x (List.mem_cons_of_mem first member), below]

theorem nodup_below (grown : Grown log) (position : Nat) (es : List Entity) (distinct : es.Nodup) :
    ((log.below position es).map Prod.snd).Nodup := by
  induction es generalizing position with
  | nil => exact List.nodup_nil
  | cons first rest ih =>
      obtain ⟨other, distinct⟩ := List.nodup_cons.mp distinct
      rw [below, List.map_append, List.map_map, List.nodup_append]
      refine ⟨?_, ih (position + 1) distinct, ?_⟩
      · exact (List.map_id _).symm ▸ grown.nodup_children (some first)
      · rintro child front _ back rfl
        obtain ⟨child', member, rfl⟩ := List.mem_map.mp front
        obtain ⟨⟨i, _⟩, listed, rfl⟩ := List.mem_map.mp back
        obtain ⟨_, parent, found, hangs⟩ := (mem_below_iff log _ _ _ _).mp listed
        have same := grown.parent_unique hangs ((mem_children_iff log _ _).mp member)
        exact other (Option.some.inj same ▸ List.mem_of_getElem? found)

end Below

section Generations

def peers (log : Lineage) (depth : Nat) : List Entity := (log.generation depth).map Prod.snd

theorem generation_succ (log : Lineage) (depth : Nat) :
    log.generation (depth + 1) = log.below 0 (log.peers depth) := rfl

theorem mem_generation_zero (log : Lineage) (i : Nat) (e : Entity) :
    (i, e) ∈ log.generation 0 ↔ i = 0 ∧ (e, none) ∈ log := by
  rw [generation, List.mem_map, ← mem_children_iff]
  constructor
  · rintro ⟨child, member, same⟩
    obtain ⟨rfl, rfl⟩ := Prod.mk.inj same
    exact ⟨rfl, member⟩
  · rintro ⟨rfl, member⟩
    exact ⟨e, member, rfl⟩

theorem mem_generation_succ (log : Lineage) (depth i : Nat) (e : Entity) :
    (i, e) ∈ log.generation (depth + 1) ↔
      ∃ parent, (log.peers depth)[i]? = some parent ∧ (e, some parent) ∈ log := by
  rw [generation, mem_below_iff]
  simp [peers]

theorem mem_peers_zero (log : Lineage) (e : Entity) : e ∈ log.peers 0 ↔ (e, none) ∈ log := by
  simp [peers, mem_generation_zero]

theorem mem_peers_succ (log : Lineage) (depth : Nat) (e : Entity) :
    e ∈ log.peers (depth + 1) ↔ ∃ parent ∈ log.peers depth, (e, some parent) ∈ log := by
  rw [peers, List.mem_map]
  constructor
  · rintro ⟨⟨i, _⟩, listed, rfl⟩
    obtain ⟨parent, found, hangs⟩ := (mem_generation_succ log depth i _).mp listed
    exact ⟨parent, List.mem_of_getElem? found, hangs⟩
  · rintro ⟨parent, member, hangs⟩
    obtain ⟨i, found⟩ := List.mem_iff_getElem?.mp member
    exact ⟨(i, e), (mem_generation_succ log depth i e).mpr ⟨parent, found, hangs⟩, rfl⟩

theorem member_of_peer {depth : Nat} (peer : e ∈ log.peers depth) : e ∈ log.members := by
  cases depth with
  | zero => exact List.mem_map.mpr ⟨_, (mem_peers_zero log e).mp peer, rfl⟩
  | succ depth =>
      obtain ⟨parent, _, hangs⟩ := (mem_peers_succ log depth e).mp peer
      exact List.mem_map.mpr ⟨_, hangs, rfl⟩

theorem Grown.depth_unique (grown : Grown log) {first second : Nat} (one : e ∈ log.peers first)
    (other : e ∈ log.peers second) : first = second := by
  induction first generalizing e second with
  | zero =>
      have rooted := (mem_peers_zero log e).mp one
      cases second with
      | zero => rfl
      | succ second =>
          obtain ⟨parent, _, hangs⟩ := (mem_peers_succ log second e).mp other
          have same := grown.parent_unique rooted hangs
          contradiction
  | succ first ih =>
      obtain ⟨parent, above, hangs⟩ := (mem_peers_succ log first e).mp one
      cases second with
      | zero =>
          have same := grown.parent_unique hangs ((mem_peers_zero log e).mp other)
          contradiction
      | succ second =>
          obtain ⟨parent', above', hangs'⟩ := (mem_peers_succ log second e).mp other
          obtain rfl := Option.some.inj (grown.parent_unique hangs hangs')
          rw [ih above above']

theorem Grown.nodup_peers (grown : Grown log) (depth : Nat) : (log.peers depth).Nodup := by
  induction depth with
  | zero =>
      rw [peers, generation, List.map_map]
      exact (List.map_id _).symm ▸ grown.nodup_children none
  | succ depth ih => exact nodup_below grown 0 (log.peers depth) ih

theorem generation_sorted (log : Lineage) (depth : Nat) :
    ((log.generation depth).map Prod.fst).Pairwise (· ≤ ·) := by
  cases depth with
  | zero =>
      rw [generation, List.map_map]
      exact List.pairwise_map.mpr (List.pairwise_of_forall fun _ _ => Nat.le_refl 0)
  | succ depth => exact below_sorted log 0 (log.peers depth)

theorem peers_append (log more : Lineage) (depth : Nat) (peer : e ∈ log.peers depth) :
    e ∈ peers (log ++ more) depth := by
  induction depth generalizing e with
  | zero =>
      rw [mem_peers_zero] at peer ⊢
      exact List.mem_append_left more peer
  | succ depth ih =>
      rw [mem_peers_succ] at peer ⊢
      obtain ⟨parent, above, hangs⟩ := peer
      exact ⟨parent, ih above, List.mem_append_left more hangs⟩

theorem Grown.exists_depth (grown : Grown log) (member : e ∈ log.members) : ∃ depth, e ∈ log.peers depth := by
  induction grown generalizing e with
  | nil => contradiction
  | root log other grown fresh ih =>
      rw [members_snoc, List.mem_append, List.mem_singleton] at member
      cases member with
      | inl old =>
          obtain ⟨depth, peer⟩ := ih old
          exact ⟨depth, peers_append log _ depth peer⟩
      | inr new => exact ⟨0, (mem_peers_zero _ e).mpr (new ▸ List.mem_append_right log (by simp))⟩
  | child log other above grown fresh known ih =>
      rw [members_snoc, List.mem_append, List.mem_singleton] at member
      cases member with
      | inl old =>
          obtain ⟨depth, peer⟩ := ih old
          exact ⟨depth, peers_append log _ depth peer⟩
      | inr new =>
          obtain ⟨depth, peer⟩ := ih known
          refine ⟨depth + 1, (mem_peers_succ _ depth e).mpr ⟨above, peers_append log _ depth peer, ?_⟩⟩
          exact new ▸ List.mem_append_right log (by simp)

inductive Line (log : Lineage) : List Entity → Entity → Prop where
  | root (e : Entity) (rooted : (e, none) ∈ log) : Line log [e] e
  | child (path : List Entity) (parent e : Entity) (above : Line log path parent)
      (hangs : (e, some parent) ∈ log) : Line log (path ++ [e]) e

theorem Line.ne_nil {path : List Entity} (line : log.Line path e) : path ≠ [] := by
  cases line with
  | root e rooted => exact List.cons_ne_nil e []
  | child path parent e above hangs => simp

theorem Grown.exists_line (grown : Grown log) (member : e ∈ log.members) : ∃ path, log.Line path e := by
  obtain ⟨depth, peer⟩ := grown.exists_depth member
  clear member
  induction depth generalizing e with
  | zero => exact ⟨[e], .root e ((mem_peers_zero log e).mp peer)⟩
  | succ depth ih =>
      obtain ⟨parent, above, hangs⟩ := (mem_peers_succ log depth e).mp peer
      obtain ⟨path, line⟩ := ih above
      exact ⟨path ++ [e], .child path parent e line hangs⟩

theorem Grown.place_unique (grown : Grown log) {depth position otherDepth other : Nat}
    (one : (log.peers depth)[position]? = some e) (another : (log.peers otherDepth)[other]? = some e) :
    depth = otherDepth ∧ position = other := by
  obtain rfl := grown.depth_unique (List.mem_of_getElem? one) (List.mem_of_getElem? another)
  obtain ⟨bound, here⟩ := List.getElem?_eq_some_iff.mp one
  obtain ⟨_, there⟩ := List.getElem?_eq_some_iff.mp another
  exact ⟨rfl, (List.Nodup.getElem_inj_iff (grown.nodup_peers depth)).mp (here.trans there.symm)⟩

end Generations

section Growth

theorem generation_root (grown : Grown log) (fresh : e ∉ log.members) (depth : Nat) :
    generation (log ++ [(e, none)]) depth =
      log.generation depth ++ if depth = 0 then [(0, e)] else [] := by
  have old (es : List Entity) : below (log ++ [(e, none)]) 0 es = log.below 0 es :=
    below_snoc log e none 0 es fun _ _ same => by contradiction
  induction depth with
  | zero =>
      rw [generation, children_snoc, if_pos rfl, List.map_append]
      rfl
  | succ depth ih =>
      have none_below (position : Nat) : log.below position [e] = [] := by
        simp [below, grown.childless fresh]
      rw [generation_succ, peers, ih, old, List.map_append, below_append, if_neg (Nat.succ_ne_zero depth)]
      cases depth with
      | zero => exact congrArg (_ ++ ·) (none_below _)
      | succ depth => rfl

structure Splits (log : Lineage) (depth position : Nat) (before after : List (Nat × Entity)) : Prop where
  whole : log.generation (depth + 1) = before ++ after
  left : ∀ place ∈ before, place.1 ≤ position
  right : ∀ place ∈ after, position < place.1

-- The place of an entity after its parent has moved up, as the parents from `start` on do.
def shift (start : Nat) (place : Nat × Entity) : Nat × Entity :=
  if start ≤ place.1 then (place.1 + 1, place.2) else place

theorem splits_below (log : Lineage) (depth : Nat) (front back : List Entity) (parent : Entity)
    (peers : log.peers depth = front ++ parent :: back) :
    Splits log depth front.length
      (log.below 0 front ++ (log.childrenOf (some parent)).map (Prod.mk front.length))
      (log.below (front.length + 1) back) := by
  refine ⟨?_, fun place member => ?_, fun place member => ?_⟩
  · rw [generation_succ, peers, below_append, below, Nat.zero_add, List.append_assoc]
  · cases List.mem_append.mp member with
    | inl early =>
        obtain ⟨_, _, found, _⟩ := (mem_below_iff log 0 front place.1 place.2).mp early
        obtain ⟨bound, _⟩ := List.getElem?_eq_some_iff.mp found
        omega
    | inr own =>
        obtain ⟨_, _, rfl⟩ := List.mem_map.mp own
        exact Nat.le_refl _
  · exact ((mem_below_iff log _ back place.1 place.2).mp member).1

theorem below_shift (log : Lineage) (front back : List Entity) :
    (log.below 0 (front ++ back)).map (shift front.length) =
      log.below 0 front ++ log.below (front.length + 1) back := by
  rw [below_append, List.map_append, Nat.zero_add, below_succ]
  congr 1
  · conv_rhs => rw [← List.map_id (log.below 0 front)]
    refine List.map_congr_left fun place member => ?_
    obtain ⟨_, _, found, _⟩ := (mem_below_iff log 0 front place.1 place.2).mp member
    obtain ⟨bound, _⟩ := List.getElem?_eq_some_iff.mp found
    exact if_neg (by omega)
  · refine List.map_congr_left fun place member => ?_
    exact if_pos ((mem_below_iff log _ back place.1 place.2).mp member).1

theorem map_snd_shift (start : Nat) (places : List (Nat × Entity)) :
    (places.map (shift start)).map Prod.snd = places.map Prod.snd := by
  rw [List.map_map]
  refine List.map_congr_left fun place _ => ?_
  rw [Function.comp_apply, shift]
  split <;> rfl

theorem below_child_away (log : Lineage) (e parent : Entity) (start : Nat) (es : List Entity)
    (other : parent ∉ es) : below (log ++ [(e, some parent)]) start es = log.below start es :=
  below_snoc log e (some parent) start es fun _ inside same => other (Option.some.inj same ▸ inside)

theorem generation_child_upper (grown : Grown log) {depth : Nat} (peer : parent ∈ log.peers depth)
    (d : Nat) (small : d ≤ depth) :
    generation (log ++ [(e, some parent)]) d = log.generation d := by
  induction d with
  | zero => rw [generation, children_snoc, if_neg (by simp), List.append_nil, generation]
  | succ d ih =>
      rw [generation_succ, peers, ih (by omega)]
      refine below_child_away log e parent 0 (log.peers d) fun inside => ?_
      have same := grown.depth_unique inside peer
      omega

theorem generation_child_here (grown : Grown log) {depth : Nat} {front back : List Entity}
    (parted : log.peers depth = front ++ parent :: back) :
    generation (log ++ [(e, some parent)]) (depth + 1) =
      (log.below 0 front ++ (log.childrenOf (some parent)).map (Prod.mk front.length)) ++
        (front.length, e) :: log.below (front.length + 1) back := by
  have peer : parent ∈ log.peers depth := parted ▸ List.mem_append_right front List.mem_cons_self
  have distinct := grown.nodup_peers depth
  rw [parted, List.nodup_middle, List.nodup_cons, List.mem_append, not_or] at distinct
  obtain ⟨⟨early, late⟩, _⟩ := distinct
  rw [generation_succ, peers, generation_child_upper grown peer depth (Nat.le_refl depth), ← peers, parted,
    below_append, below, below_child_away log e parent _ _ early, below_child_away log e parent _ _ late,
    children_snoc, if_pos rfl, List.map_append, Nat.zero_add]
  simp

theorem generation_child_next (grown : Grown log) (fresh : e ∉ log.members) {depth position : Nat}
    (peer : parent ∈ log.peers depth) {before after : List (Nat × Entity)}
    (whole : log.generation (depth + 1) = before ++ after)
    (here : generation (log ++ [(e, some parent)]) (depth + 1) = before ++ (position, e) :: after) :
    generation (log ++ [(e, some parent)]) (depth + 2) =
      (log.generation (depth + 2)).map (shift before.length) := by
  have old : log.peers (depth + 1) = before.map Prod.snd ++ after.map Prod.snd := by
    rw [peers, whole, List.map_append]
  have other : parent ∉ before.map Prod.snd ++ e :: after.map Prod.snd := by
    have apart : parent ∉ log.peers (depth + 1) := fun inside => by
      have same := grown.depth_unique inside peer
      omega
    rw [old] at apart
    have self : parent ≠ e := fun same => fresh (same ▸ member_of_peer peer)
    simp only [List.mem_append, List.mem_cons, not_or] at apart ⊢
    exact ⟨apart.1, self, apart.2⟩
  have shifted := below_shift log (before.map Prod.snd) (after.map Prod.snd)
  rw [List.length_map] at shifted
  rw [generation_succ, peers, here, List.map_append, List.map_cons, below_child_away log e parent 0 _ other,
    below_append, below, grown.childless fresh, generation_succ, old, List.map_nil, List.nil_append,
    Nat.zero_add, List.length_map, shifted]

-- Farther down the entities are the old ones, so their children are.
theorem generation_child_lower (grown : Grown log) {depth : Nat} (peer : parent ∈ log.peers depth)
    (next : peers (log ++ [(e, some parent)]) (depth + 2) = log.peers (depth + 2)) (d : Nat) :
    generation (log ++ [(e, some parent)]) (depth + 3 + d) = log.generation (depth + 3 + d) := by
  have apart (d : Nat) (deeper : depth < d) : parent ∉ log.peers d := fun inside => by
    have same := grown.depth_unique inside peer
    omega
  induction d with
  | zero =>
      rw [Nat.add_zero, generation_succ, next]
      exact below_child_away log e parent 0 _ (apart (depth + 2) (by omega))
  | succ d ih =>
      rw [← Nat.add_assoc, generation_succ, peers, ih]
      exact below_child_away log e parent 0 _ (apart (depth + 3 + d) (by omega))

/-- A new child goes behind its siblings. In the generation after, parents behind it move up. -/
theorem generation_child (grown : Grown log) (fresh : e ∉ log.members) {depth position : Nat}
    (above : (log.peers depth)[position]? = some parent) :
    ∃ before after, Splits log depth position before after ∧
      ∀ d, generation (log ++ [(e, some parent)]) d =
        if d = depth + 1 then before ++ (position, e) :: after
        else if d = depth + 2 then (log.generation d).map (shift before.length)
        else log.generation d := by
  obtain ⟨bound, found⟩ := List.getElem?_eq_some_iff.mp above
  have peer : parent ∈ log.peers depth := List.mem_of_getElem? above
  obtain ⟨front, back, parted, rfl⟩ : ∃ front back,
      log.peers depth = front ++ parent :: back ∧ front.length = position := by
    refine ⟨(log.peers depth).take position, (log.peers depth).drop (position + 1), ?_, ?_⟩
    · rw [← found, ← List.drop_eq_getElem_cons bound, List.take_append_drop]
    · rw [List.length_take, Nat.min_eq_left (Nat.le_of_lt bound)]
  have splits := splits_below log depth front back parent parted
  have here := generation_child_here (e := e) grown parted
  have next := generation_child_next grown fresh peer splits.whole here
  have same : peers (log ++ [(e, some parent)]) (depth + 2) = log.peers (depth + 2) := by
    rw [peers, next, map_snd_shift, peers]
  refine ⟨_, _, splits, fun d => ?_⟩
  by_cases first : d = depth + 1
  · rw [if_pos first, first, here]
  · by_cases second : d = depth + 2
    · rw [if_neg first, if_pos second, second, next]
    · rw [if_neg first, if_neg second]
      by_cases small : d ≤ depth
      · exact generation_child_upper grown peer d small
      · rw [show d = depth + 3 + (d - (depth + 3)) by omega]
        exact generation_child_lower grown peer same _

end Growth

end Lineage

end EntityStore
