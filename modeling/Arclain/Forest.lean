import Mathlib.Data.List.Nodup
import Mathlib.Data.List.Perm.Subperm
import Mathlib.Logic.Function.Iterate

namespace Arclain

/-!
# Walking a forest

The nodes of a forest are in places, and some nodes open a place of their own.  A walk with
a stack that starts with the nodes of the root visits every node once.
-/

open List Function

/-- A finite forest: the nodes of each place, the places they open, and the place a place is
in. -/
structure Forest (Node Place : Type*) where
  root : Place
  nodes : Place → List Node
  opens : Node → Option Place
  home : Node → Place
  up : Place → Place
  rank : Place → Nat
  height : Nat
  up_root : up root = root
  rank_up : ∀ {place}, place ≠ root → rank (up place) < rank place
  rank_lt : ∀ {place}, nodes place ≠ [] → rank place < height
  nodup : ∀ place, (nodes place).Nodup
  home_of_mem : ∀ {place node}, node ∈ nodes place → home node = place
  up_of_opens : ∀ {place node inner}, node ∈ nodes place → opens node = some inner →
    up inner = place ∧ inner ≠ root
  single : ∀ {place node other inner}, node ∈ nodes place → other ∈ nodes place →
    opens node = some inner → opens other = some inner → node = other
  opened : ∀ {place}, nodes place ≠ [] → place ≠ root →
    ∃ node ∈ nodes (up place), opens node = some place

namespace Forest

variable {Node Place : Type*} (forest : Forest Node Place)

/-- The nodes of the place that a node opens. -/
def below (node : Node) : List Node :=
  match forest.opens node with
  | none => []
  | some inner => forest.nodes inner

def walk : Nat → List Node → List Node
  | 0, _ | _ + 1, [] => []
  | fuel + 1, node :: stack => node :: walk fuel (forest.below node ++ stack)

/-- A node and the nodes below it, down to some depth. -/
def subtree : Nat → Node → List Node
  | 0, node => [node]
  | depth + 1, node => node :: (forest.below node).flatMap (subtree depth)

def Reaches (above place : Place) : Prop := ∃ steps, forest.up^[steps] place = above

def OpensTo (node : Node) (place : Place) : Prop :=
  ∃ inner, forest.opens node = some inner ∧ forest.Reaches inner place

def Deep (depth : Nat) (node : Node) : Prop :=
  ∀ inner, forest.opens node = some inner → forest.height ≤ forest.rank inner + depth

def listing : List Node := (forest.nodes forest.root).flatMap (forest.subtree forest.height)

section

variable {forest} {place inner other : Place} {node : Node} {depth : Nat}

theorem nodes_eq_nil (deep : forest.height ≤ forest.rank place) : forest.nodes place = [] := by
  by_contra inhabited
  exact absurd (forest.rank_lt inhabited) (Nat.not_lt_of_le deep)

theorem rank_lt_of_opens (mem : node ∈ forest.nodes place)
    (opens : forest.opens node = some inner) : forest.rank place < forest.rank inner := by
  obtain ⟨rfl, notRoot⟩ := forest.up_of_opens mem opens
  exact forest.rank_up notRoot

theorem rank_up_le (place : Place) : forest.rank (forest.up place) ≤ forest.rank place := by
  by_cases isRoot : place = forest.root
  · rw [isRoot]
    exact Nat.le_of_eq (congrArg forest.rank forest.up_root)
  · exact Nat.le_of_lt (forest.rank_up isRoot)

theorem Reaches.rank_le (reaches : forest.Reaches other place) :
    forest.rank other ≤ forest.rank place := by
  obtain ⟨steps, rfl⟩ := reaches
  induction steps generalizing place with
  | zero => exact Nat.le_refl _
  | succ steps ih =>
    rw [iterate_succ_apply]
    exact Nat.le_trans ih (rank_up_le place)

theorem Reaches.refl (place : Place) : forest.Reaches place place := ⟨0, rfl⟩

theorem Reaches.of_up (reaches : forest.Reaches other (forest.up place)) :
    forest.Reaches other place := by
  obtain ⟨steps, rfl⟩ := reaches
  exact ⟨steps + 1, iterate_succ_apply _ _ _⟩

theorem Reaches.cases_up (reaches : forest.Reaches other place) :
    place = other ∨ forest.Reaches other (forest.up place) := by
  obtain ⟨steps, rfl⟩ := reaches
  cases steps with
  | zero => exact .inl rfl
  | succ steps => exact .inr ⟨steps, (iterate_succ_apply _ _ _).symm⟩

theorem reaches_root (place : Place) : forest.Reaches forest.root place := by
  induction measured : forest.rank place using Nat.strongRecOn generalizing place with
  | _ _ ih =>
    by_cases isRoot : place = forest.root
    · rw [isRoot]
      exact .refl _
    · refine .of_up (ih _ ?_ _ rfl)
      rw [← measured]
      exact forest.rank_up isRoot

theorem Reaches.eq_root (reaches : forest.Reaches other forest.root) : other = forest.root := by
  obtain ⟨steps, rfl⟩ := reaches
  exact iterate_fixed forest.up_root steps

theorem Reaches.up (reaches : forest.Reaches other place) :
    forest.Reaches (forest.up other) place := by
  obtain ⟨steps, rfl⟩ := reaches
  exact ⟨steps + 1, iterate_succ_apply' _ _ _⟩

theorem OpensTo.reaches (mem : node ∈ forest.nodes place) (opensTo : forest.OpensTo node other) :
    forest.Reaches place other := by
  obtain ⟨_, opens, reaches⟩ := opensTo
  obtain ⟨rfl, _⟩ := forest.up_of_opens mem opens
  exact reaches.up

theorem OpensTo.rank_lt (mem : node ∈ forest.nodes place) (opensTo : forest.OpensTo node other) :
    forest.rank place < forest.rank other := by
  obtain ⟨_, opens, reaches⟩ := opensTo
  exact Nat.lt_of_lt_of_le (rank_lt_of_opens mem opens) reaches.rank_le

theorem Reaches.eq_of_up_eq {first second : Place} (firstReaches : forest.Reaches first place)
    (secondReaches : forest.Reaches second place) (firstInner : first ≠ forest.root)
    (secondInner : second ≠ forest.root) (same : forest.up first = forest.up second) :
    first = second := by
  induction measured : forest.rank place using Nat.strongRecOn generalizing place with
  | _ _ ih =>
    have firstDeeper := forest.rank_up firstInner
    have secondDeeper := forest.rank_up secondInner
    rcases firstReaches.cases_up with rfl | firstUp
    · rcases secondReaches.cases_up with rfl | secondUp
      · rfl
      · have bound := secondUp.rank_le
        rw [same] at bound
        omega
    · rcases secondReaches.cases_up with rfl | secondUp
      · have bound := firstUp.rank_le
        rw [← same] at bound
        omega
      · by_cases isRoot : place = forest.root
        · rw [isRoot] at firstReaches
          exact absurd firstReaches.eq_root firstInner
        · refine ih _ ?_ firstUp secondUp rfl
          rw [← measured]
          exact forest.rank_up isRoot

theorem exists_opensTo (inhabited : forest.nodes place ≠ []) (reaches : forest.Reaches other place)
    (differs : place ≠ other) : ∃ node ∈ forest.nodes other, forest.OpensTo node place := by
  induction measured : forest.rank place using Nat.strongRecOn generalizing place with
  | _ _ ih =>
    have notRoot : place ≠ forest.root := by
      rintro rfl
      exact differs reaches.eq_root.symm
    obtain ⟨node, mem, opens⟩ := forest.opened inhabited notRoot
    have reachesUp := reaches.cases_up.resolve_left differs
    by_cases isUp : forest.up place = other
    · rw [← isUp]
      exact ⟨node, mem, place, opens, .refl _⟩
    · obtain ⟨opener, openerMember, inner, openerOpens, innerReaches⟩ :=
        ih _ (measured ▸ forest.rank_up notRoot) (ne_nil_of_mem mem) reachesUp isUp rfl
      exact ⟨opener, openerMember, inner, openerOpens, innerReaches.of_up⟩

theorem OpensTo.unique {opener : Node} (mem : node ∈ forest.nodes place)
    (openerMember : opener ∈ forest.nodes place) (opensTo : forest.OpensTo node other)
    (openerOpensTo : forest.OpensTo opener other) : node = opener := by
  obtain ⟨_, opens, reaches⟩ := opensTo
  obtain ⟨_, openerOpens, openerReaches⟩ := openerOpensTo
  obtain ⟨isUp, notRoot⟩ := forest.up_of_opens mem opens
  obtain ⟨openerIsUp, openerNotRoot⟩ := forest.up_of_opens openerMember openerOpens
  obtain rfl := reaches.eq_of_up_eq openerReaches notRoot openerNotRoot (isUp.trans openerIsUp.symm)
  exact forest.single mem openerMember opens openerOpens

end

section

variable {forest} {place inner : Place} {node : Node} {depth fuel : Nat} {stack : List Node}

theorem walk_flatMap {nodes : List Node} {parts : Node → List Node} (visits :
    ∀ node ∈ nodes, ∀ fuel stack, (parts node).length ≤ fuel → forest.walk fuel (node :: stack) =
      parts node ++ forest.walk (fuel - (parts node).length) stack)
    (enough : (nodes.flatMap parts).length ≤ fuel) :
    forest.walk fuel (nodes ++ stack) = nodes.flatMap parts ++
      forest.walk (fuel - (nodes.flatMap parts).length) stack := by
  induction nodes generalizing fuel with
  | nil => rfl
  | cons node nodes ih =>
    obtain ⟨first, others⟩ := forall_mem_cons.mp visits
    rw [flatMap_cons, length_append] at enough
    rw [cons_append, first fuel _ (by omega), flatMap_cons,
      ih others (by omega), append_assoc, length_append,
      Nat.sub_sub]

theorem Deep.of_opens {child : Node} (deep : forest.Deep (depth + 1) node)
    (opens : forest.opens node = some inner) (mem : child ∈ forest.nodes inner) :
    forest.Deep depth child := by
  intro _ childOpens
  have bound := deep inner opens
  have deeper := rank_lt_of_opens mem childOpens
  omega

theorem deep_height (node : Node) : forest.Deep forest.height node := fun _ _ => Nat.le_add_left _ _

theorem walk_cons (deep : forest.Deep depth node)
    (enough : (forest.subtree depth node).length ≤ fuel) :
    forest.walk fuel (node :: stack) = forest.subtree depth node ++
      forest.walk (fuel - (forest.subtree depth node).length) stack := by
  induction depth generalizing node fuel stack with
  | zero =>
    have nothing : forest.below node = [] := by
      unfold below
      split
      · rfl
      next inner opens => exact nodes_eq_nil (deep inner opens)
    cases fuel with
    | zero => cases enough
    | succ fuel =>
      rw [walk, nothing]
      rfl
  | succ depth ih =>
    cases fuel with
    | zero => cases enough
    | succ fuel =>
      have visits : ∀ child ∈ forest.below node, ∀ fuel stack,
          (forest.subtree depth child).length ≤ fuel →
          forest.walk fuel (child :: stack) = forest.subtree depth child ++
            forest.walk (fuel - (forest.subtree depth child).length) stack := by
        intro child mem fuel stack enough
        refine ih ?_ enough
        unfold below at mem
        split at mem
        · cases mem
        next inner opens => exact deep.of_opens opens mem
      rw [subtree, length_cons] at enough
      rw [walk, subtree, walk_flatMap visits (by omega), length_cons, Nat.succ_sub_succ]
      rfl

end

theorem flatMap_of_unique {Item Part : Type*} {items : List Item} {item : Item}
    {parts : Item → List Part} (once : items.Nodup) (mem : item ∈ items)
    (unique : ∀ other ∈ items, parts other ≠ [] → other = item) :
    items.flatMap parts = parts item := by
  obtain ⟨before, behind, rfl⟩ := append_of_mem mem
  have notBefore : item ∉ before := fun isBefore =>
    (nodup_append.mp once).2.2 item isBefore item mem_cons_self rfl
  have notBehind : item ∉ behind := (nodup_cons.mp (nodup_append.mp once).2.1).1
  have nothing (others : List Item) (inItems : others ⊆ before ++ item :: behind)
      (absent : item ∉ others) : others.flatMap parts = [] := by
    refine flatMap_eq_nil_iff.mpr fun other isOther => ?_
    by_contra somePart
    exact absent (unique other (inItems isOther) somePart ▸ isOther)
  rw [flatMap_append, flatMap_cons, nothing before (by simp) notBefore,
    nothing behind ?_ notBehind, nil_append, append_nil]
  intro other isOther
  exact mem_append_right _ (mem_cons_of_mem _ isOther)

section

variable {forest} [DecidableEq Place] {place target : Place} {node : Node} {depth fuel : Nat}

open Classical in
theorem flatMap_nodes : ((forest.nodes place).flatMap fun node =>
  (if place = target then [node] else []) ++
    if forest.OpensTo node target then forest.nodes target else []) =
  if forest.Reaches place target then forest.nodes target else [] := by
  by_cases same : place = target
  · subst same
    rw [if_pos (Reaches.refl place)]
    calc
      _ = (forest.nodes place).flatMap fun node => [node] := by
        refine flatMap_congr fun node mem => ?_
        have notInside : ¬ forest.OpensTo node place := fun opensTo =>
          Nat.lt_irrefl _ (opensTo.rank_lt mem)
        rw [if_pos rfl, if_neg notInside, append_nil]
      _ = forest.nodes place := flatMap_singleton' _
  · simp only [if_neg same, nil_append]
    by_cases inhabited : forest.nodes target = []
    · simp [inhabited]
    · by_cases reaches : forest.Reaches place target
      · obtain ⟨_, openerMember, opensTo⟩ := exists_opensTo inhabited reaches (Ne.symm same)
        rw [if_pos reaches, flatMap_of_unique (forest.nodup place) openerMember, if_pos opensTo]
        intro _ otherMember somePart
        by_contra differs
        refine somePart (if_neg fun otherOpensTo => ?_)
        exact differs (otherOpensTo.unique otherMember openerMember opensTo)
      · rw [if_neg reaches, flatMap_eq_nil_iff]
        intro node mem
        exact if_neg fun opensTo => reaches (opensTo.reaches mem)

open Classical in
theorem filter_subtree (mem : node ∈ forest.nodes place) (deep : forest.Deep depth node) :
    (forest.subtree depth node).filter (fun other => forest.home other = target) =
      (if place = target then [node] else []) ++
        if forest.OpensTo node target then forest.nodes target else [] := by
  have home := forest.home_of_mem mem
  induction depth generalizing node place with
  | zero =>
    have nothing : forest.OpensTo node target → forest.nodes target = [] := by
      rintro ⟨inner, opens, reaches⟩
      exact nodes_eq_nil (Nat.le_trans (deep inner opens) reaches.rank_le)
    by_cases opensTo : forest.OpensTo node target
    · rw [if_pos opensTo, nothing opensTo]
      by_cases same : place = target <;> simp [subtree, home, same]
    · rw [if_neg opensTo]
      by_cases same : place = target <;> simp [subtree, home, same]
  | succ depth ih =>
    have inside : ((forest.below node).flatMap (forest.subtree depth)).filter
        (fun other => forest.home other = target) =
          if forest.OpensTo node target then forest.nodes target else [] := by
      unfold below
      cases opens : forest.opens node with
      | none =>
        have notInside : ¬ forest.OpensTo node target := by
          rintro ⟨inner, opensInner, _⟩
          rw [opens] at opensInner
          cases opensInner
        rw [if_neg notInside]
        rfl
      | some inner =>
        have opensTo : forest.OpensTo node target ↔ forest.Reaches inner target := by
          simp [OpensTo, opens]
        rw [filter_flatMap, flatMap_congr fun child childMember =>
          ih childMember (deep.of_opens opens childMember)
            (forest.home_of_mem childMember), flatMap_nodes]
        simp only [opensTo]
    rw [subtree, filter_cons, inside, home]
    by_cases same : place = target <;> simp [same]

theorem filter_listing : forest.listing.filter (fun node => forest.home node = target) =
    forest.nodes target := by
  rw [listing, filter_flatMap, flatMap_congr fun node mem =>
    filter_subtree mem (deep_height _), flatMap_nodes,
    if_pos (reaches_root target)]

end

section

variable {forest} {node : Node} {fuel : Nat} {all : List Node}

theorem mem_listing : node ∈ forest.listing ↔ node ∈ forest.nodes (forest.home node) := by
  classical
  rw [← @filter_listing _ _ forest _ (forest.home node), mem_filter]
  simp

theorem nodup_listing : forest.listing.Nodup := by
  classical
  refine nodup_iff_count_le_one.mpr fun node => ?_
  have inHome : forest.listing.count node = (forest.listing.filter fun other =>
    forest.home other = forest.home node).count node :=
    (count_filter (by simp)).symm
  rw [inHome, filter_listing]
  exact nodup_iff_count_le_one.mp (forest.nodup _) node

theorem walk_root (listed : ∀ place, forest.nodes place ⊆ all) (enough : all.length ≤ fuel) :
    forest.walk fuel (forest.nodes forest.root) = forest.listing := by
  have few : forest.listing.length ≤ fuel := by
    refine Nat.le_trans ?_ enough
    refine (nodup_listing.subperm fun node mem => ?_).length_le
    exact listed _ (mem_listing.mp mem)
  have visits : ∀ node ∈ forest.nodes forest.root, ∀ fuel stack,
      (forest.subtree forest.height node).length ≤ fuel →
      forest.walk fuel (node :: stack) = forest.subtree forest.height node ++
        forest.walk (fuel - (forest.subtree forest.height node).length) stack :=
    fun node mem fuel stack enough => walk_cons (deep_height _) enough
  have walked := @walk_flatMap _ _ forest fuel [] _ _ visits few
  have atEnd (fuel : Nat) : forest.walk fuel [] = [] := by cases fuel <;> rfl
  rw [append_nil, atEnd, append_nil] at walked
  exact walked

end

end Forest

end Arclain
