import Cardsmith.Proofs.Card.Level

/-!
# The breadth-first walk

The queue of a walk goes through its nodes generation by generation.  The paths of one generation
of the card are the paths of one length that resolve in it, so a walk comes to every mapping
exactly once, nearer ones first and those of one depth in the order of the card.
-/

namespace Cardsmith
namespace Card

open Json

/-! ## Generations -/

/-- The nodes a number of steps below the nodes given. -/
def generation : Nat → List Node → List Node
  | 0, ns => ns
  | depth + 1, ns => generation depth (ns.flatMap Node.below)

theorem generation_nil (depth : Nat) : generation depth [] = [] := by
  induction depth with
  | zero => rfl
  | succ depth ih => exact ih

theorem generation_append (depth : Nat) (ns ms : List Node) :
    generation depth (ns ++ ms) = generation depth ns ++ generation depth ms := by
  induction depth generalizing ns ms with
  | zero => rfl
  | succ depth ih =>
      rw [generation, List.flatMap_append, ih]
      rfl

theorem generation_eq_flatMap (depth : Nat) (ns : List Node) :
    generation depth ns = ns.flatMap fun n => generation depth [n] := by
  induction ns with
  | nil => exact generation_nil depth
  | cons n rest ih =>
      show generation depth ([n] ++ rest) = ([n] ++ rest).flatMap _
      rw [generation_append, ih, List.flatMap_append]
      simp

theorem map_path_generation (depth : Nat) (n : Node) :
    (generation depth [n]).map Node.path =
      (level depth n.node).map fun path => n.path ++ path := by
  induction depth generalizing n with
  | zero => simp [generation, level]
  | succ depth ih =>
      have hbelow : [n].flatMap Node.below = n.below := by simp
      rw [generation, hbelow, generation_eq_flatMap, List.map_flatMap, level, List.map_flatMap,
        Node.below, List.flatMap_map]
      apply List.flatMap_congr
      intro found _
      rw [ih, List.map_map]
      simp

/-! ## The queue -/

def totalNodes (ns : List Node) : Nat := (ns.map fun n => nodeCount n.node).sum

theorem totalNodes_cons (n : Node) (ns : List Node) :
    totalNodes (n :: ns) = nodeCount n.node + totalNodes ns := by
  simp [totalNodes]

theorem totalNodes_append (ns ms : List Node) :
    totalNodes (ns ++ ms) = totalNodes ns + totalNodes ms := by
  simp [totalNodes]

theorem nodeCount_eq_totalNodes_below (n : Node) :
    nodeCount n.node = 1 + totalNodes n.below := by
  rw [nodeCount_eq, totalNodes, Node.below, List.map_map]
  rfl

theorem totalNodes_flatMap_below (ns : List Node) :
    ns.length + totalNodes (ns.flatMap Node.below) = totalNodes ns := by
  induction ns with
  | nil => rfl
  | cons n rest ih =>
      rw [List.flatMap_cons, totalNodes_append, totalNodes_cons, List.length_cons,
        nodeCount_eq_totalNodes_below]
      omega

theorem walkFrom_nil (limit : Nat) : walkFrom limit [] = [] := by
  cases limit <;> rfl

theorem length_walkFrom_le (limit : Nat) (queue : List Node) :
    (walkFrom limit queue).length ≤ limit := by
  induction limit generalizing queue with
  | zero => exact Nat.le_refl 0
  | succ limit ih =>
      cases queue with
      | nil => exact Nat.zero_le _
      | cons n rest =>
          rw [walkFrom, List.length_cons]
          exact Nat.succ_le_succ (ih _)

theorem walkFrom_eq_take (limit extra : Nat) (queue : List Node) :
    walkFrom limit queue = (walkFrom (limit + extra) queue).take limit := by
  induction limit generalizing queue with
  | zero => simp [walkFrom]
  | succ limit ih =>
      cases queue with
      | nil => simp [walkFrom_nil]
      | cons n rest =>
          rw [Nat.succ_add, walkFrom, walkFrom, List.take_succ_cons, ← ih]

theorem walkFrom_append (limit : Nat) (front back : List Node) :
    walkFrom (front.length + limit) (front ++ back) =
      front ++ walkFrom limit (back ++ front.flatMap Node.below) := by
  induction front generalizing back with
  | nil => simp
  | cons n rest ih =>
      rw [List.length_cons, Nat.succ_add, List.cons_append, walkFrom, List.append_assoc, ih,
        List.flatMap_cons, List.append_assoc]
      rfl

/-- A walk with enough steps goes through all generations below its queue. -/
theorem walkFrom_eq_generations {limit : Nat} (count : Nat) {ns : List Node}
    (hlimit : totalNodes ns ≤ limit) (hcount : totalNodes ns ≤ count) :
    walkFrom limit ns = (List.range count).flatMap fun depth => generation depth ns := by
  -- The queue is one whole generation at a time: the nodes in it come before all below them.
  induction count generalizing limit ns with
  | zero =>
      have hnil : ns = [] := by
        have hlength := totalNodes_flatMap_below ns
        rw [← List.length_eq_zero_iff]
        omega
      rw [hnil, walkFrom_nil]
      rfl
  | succ count ih =>
      have hlength := totalNodes_flatMap_below ns
      have hsplit : limit = ns.length + (limit - ns.length) := by omega
      cases ns with
      | nil =>
          rw [walkFrom_nil]
          simp [generation_nil]
      | cons n rest =>
          rw [List.length_cons] at hlength
          have hwalk := walkFrom_append (limit - (n :: rest).length) (n :: rest) []
          rw [← hsplit, List.append_nil, List.nil_append] at hwalk
          have hfirst : ((List.range (count + 1)).flatMap fun depth =>
                generation depth (n :: rest)) =
              (n :: rest) ++ (List.range count).flatMap fun depth =>
                generation depth ((n :: rest).flatMap Node.below) := by
            rw [List.range_succ_eq_map, List.flatMap_cons, List.flatMap_map]
            rfl
          rw [hwalk, hfirst, ih (by rw [List.length_cons]; omega) (by omega)]

/-- Steps beyond the number of nodes below the queue change nothing. -/
theorem walkFrom_add {limit : Nat} (extra : Nat) {ns : List Node}
    (hlimit : totalNodes ns ≤ limit) : walkFrom (limit + extra) ns = walkFrom limit ns := by
  rw [walkFrom_eq_generations (totalNodes ns) hlimit (Nat.le_refl _),
    walkFrom_eq_generations (totalNodes ns) (by omega) (Nat.le_refl _)]

theorem totalNodes_root (card : Card) : totalNodes [Node.root card] = nodeCount card := by
  simp [totalNodes, Node.root]

theorem walk_eq_walkFrom {card : Card} {limit : Nat} (h : nodeCount card ≤ limit) :
    walk card = walkFrom limit [Node.root card] := by
  have hsplit : limit = nodeCount card + (limit - nodeCount card) := by omega
  rw [hsplit, walkFrom_add _ (Nat.le_of_eq (totalNodes_root card))]
  rfl

theorem length_walkFrom {limit : Nat} {ns : List Node} (h : totalNodes ns ≤ limit) :
    (walkFrom limit ns).length = totalNodes ns := by
  induction limit generalizing ns with
  | zero =>
      have hzero : totalNodes ns = 0 := Nat.le_zero.mp h
      rw [hzero]
      rfl
  | succ limit ih =>
      cases ns with
      | nil => rfl
      | cons n rest =>
          rw [totalNodes_cons, nodeCount_eq_totalNodes_below] at h ⊢
          rw [walkFrom, List.length_cons, ih (by rw [totalNodes_append]; omega), totalNodes_append]
          omega

theorem length_walk (card : Card) : (walk card).length = nodeCount card := by
  rw [walk, walkFirst, length_walkFrom (Nat.le_of_eq (totalNodes_root card)), totalNodes_root]

theorem map_path_walk (card : Card) :
    (walk card).map Node.path =
      (List.range (nodeCount card)).flatMap fun depth => level depth card := by
  have htotal := Nat.le_of_eq (totalNodes_root card)
  rw [walk, walkFirst, walkFrom_eq_generations (nodeCount card) htotal htotal, List.map_flatMap]
  apply List.flatMap_congr
  intro depth _
  rw [map_path_generation]
  simp [Node.root]

/-! ## Nodes -/

theorem forall_mem_walkFrom {P : Node → Prop}
    (hbelow : ∀ n, P n → ∀ m ∈ n.below, P m) {limit : Nat} {queue : List Node}
    (hqueue : ∀ n ∈ queue, P n) : ∀ n ∈ walkFrom limit queue, P n := by
  induction limit generalizing queue with
  | zero =>
      intro n hn
      cases hn
  | succ limit ih =>
      cases queue with
      | nil =>
          intro n hn
          cases hn
      | cons first rest =>
          have hfirst : P first := hqueue first List.mem_cons_self
          have hnext : ∀ n ∈ rest ++ first.below, P n := by
            intro n hn
            rcases List.mem_append.mp hn with hrest | hnew
            · exact hqueue n (List.mem_cons_of_mem _ hrest)
            · exact hbelow first hfirst n hnew
          intro n hn
          rcases List.mem_cons.mp hn with hhead | htail
          · rw [hhead]
            exact hfirst
          · exact ih hnext n htail

/-- The mapping, the key and the parent of a node are those that its path says. -/
structure Node.Placed (card : Card) (n : Node) : Prop where
  node : resolve? card n.path = some n.node
  key : n.key = Path.lastKey? n.path
  parent : n.parent = if n.path = [] then none else resolve? card n.path.dropLast

theorem Node.placed_root (card : Card) : (Node.root card).Placed card :=
  ⟨rfl, rfl, rfl⟩

theorem resolve?_concat {card node child : Mapping} {path : Path} {step : Step}
    (hnode : resolve? card path = some node) (hchild : step.resolve? node = some child) :
    resolve? card (path ++ [step]) = some child := by
  rw [resolve?_append, hnode]
  simp [resolve?_cons, hchild]

theorem lastKey?_concat (path : Path) (step : Step) :
    Path.lastKey? (path ++ [step]) = some step.key := by
  simp [Path.lastKey?]

theorem Node.resolve?_below {card : Card} (h : Mapping.WellFormed card) {n m : Node}
    (hn : resolve? card n.path = some n.node) (hm : m ∈ n.below) :
    resolve? card m.path = some m.node := by
  rcases List.mem_map.mp hm with ⟨⟨step, child⟩, hchild, rfl⟩
  have hdistinct := (resolve?_wellFormed h hn).distinct
  exact resolve?_concat hn ((mem_children hdistinct).mp hchild)

theorem Node.placed_below {card : Card} (h : Mapping.WellFormed card) {n m : Node}
    (hn : n.Placed card) (hm : m ∈ n.below) : m.Placed card := by
  have hresolve := Node.resolve?_below h hn.node hm
  rcases List.mem_map.mp hm with ⟨⟨step, child⟩, _, rfl⟩
  constructor
  · exact hresolve
  · exact (lastKey?_concat n.path step).symm
  · simp [hn.node]

theorem placed_of_mem_walk {card : Card} (h : Mapping.WellFormed card) :
    ∀ n ∈ walk card, n.Placed card := by
  apply forall_mem_walkFrom (fun n hn m hm => Node.placed_below h hn hm)
  intro n hn
  rw [List.mem_singleton] at hn
  rw [hn]
  exact Node.placed_root card

/-! ## Order -/

/-- The order of a breadth-first walk: shorter paths first, and paths of one length in the
lexicographic order of the positions along them. -/
def Path.Before (card : Card) (p q : Path) : Prop :=
  p.length < q.length ∨ (p.length = q.length ∧ Path.PositionsLt card p q)

theorem Path.before_irrefl (card : Card) (path : Path) : ¬ Path.Before card path path := by
  rintro (hlength | ⟨_, hpositions⟩)
  · exact Nat.lt_irrefl _ hlength
  · exact Path.positionsLt_irrefl card path hpositions

theorem mem_map_path_walk {card : Card} (h : Mapping.WellFormed card) (path : Path) :
    path ∈ (walk card).map Node.path ↔ (resolve? card path).isSome := by
  rw [map_path_walk]
  simp only [List.mem_flatMap, List.mem_range, mem_level h]
  constructor
  · rintro ⟨depth, _, _, hsome⟩
    exact hsome
  · intro hsome
    rcases Option.isSome_iff_exists.mp hsome with ⟨found, hfound⟩
    exact ⟨path.length, length_lt_nodeCount h hfound, rfl, hsome⟩

theorem map_path_walk_pairwise {card : Card} (h : Mapping.WellFormed card) :
    ((walk card).map Node.path).Pairwise (Path.Before card) := by
  rw [map_path_walk, List.pairwise_flatMap]
  constructor
  · intro depth _
    refine List.Pairwise.imp_of_mem ?_ (level_pairwise h depth)
    intro p q hp hq hless
    rw [mem_level h] at hp hq
    exact Or.inr ⟨by rw [hp.left, hq.left], hless⟩
  · refine List.pairwise_lt_range.imp ?_
    intro i j hij p hp q hq
    rw [mem_level h] at hp hq
    exact Or.inl (by rw [hp.left, hq.left]; exact hij)

theorem map_path_walk_nodup {card : Card} (h : Mapping.WellFormed card) :
    ((walk card).map Node.path).Nodup := by
  refine (map_path_walk_pairwise h).imp ?_
  intro p q hbefore heq
  rw [heq] at hbefore
  exact Path.before_irrefl card q hbefore

theorem walkFirst_eq_take (limit : Nat) (card : Card) :
    walkFirst limit card = (walk card).take limit := by
  by_cases hle : limit ≤ nodeCount card
  · have hsplit : nodeCount card = limit + (nodeCount card - limit) := by omega
    rw [walk, walkFirst, walkFirst, hsplit]
    exact walkFrom_eq_take limit _ _
  · rw [walkFirst, ← walk_eq_walkFrom (by omega), List.take_of_length_le]
    have hlength : (walk card).length ≤ nodeCount card := length_walkFrom_le _ _
    omega

/-- A walk lists exactly the paths that resolve in the card, each once and in breadth-first order,
and every node it lists is the one that its path says; a walk that is stopped has listed the
first of them. -/
theorem walk_lists_resolving_paths (card : Card) (h : Mapping.WellFormed card) :
    (∀ path, path ∈ (walk card).map Node.path ↔ (resolve? card path).isSome) ∧
      ((walk card).map Node.path).Nodup ∧
      ((walk card).map Node.path).Pairwise (Path.Before card) ∧
      (∀ n ∈ walk card,
        resolve? card n.path = some n.node ∧
          n.key = Path.lastKey? n.path ∧
          n.parent = if n.path = [] then none else resolve? card n.path.dropLast) ∧
      ∀ limit, walkFirst limit card = (walk card).take limit := by
  refine ⟨mem_map_path_walk h, map_path_walk_nodup h, map_path_walk_pairwise h, ?_, ?_⟩
  · intro n hn
    have hplaced := placed_of_mem_walk h n hn
    exact ⟨hplaced.node, hplaced.key, hplaced.parent⟩
  · intro limit
    exact walkFirst_eq_take limit card

/-- A card whose nodes have equal contents, with a mapping that is no node in an inner array. -/
def twins : Card :=
  [("a", .array [.object [], .null, .object [], .array [.object []]]),
    ("b", .object [("c", .object [])])]

theorem twins_paths_resolving :
    Mapping.WellFormed twins ∧
      ∀ path, (resolve? twins path).isSome ↔
        path ∈ [[], [.element "a" 0], [.element "a" 2], [.field "b"],
          [.field "b", .field "c"]] := by
  have hwell : Mapping.WellFormed twins := by decide
  refine ⟨hwell, ?_⟩
  intro path
  rw [← (walk_lists_resolving_paths twins hwell).left path]
  rfl

end Card
end Cardsmith
