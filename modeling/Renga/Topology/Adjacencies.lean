import Renga.Topology.NeighborHistory

/-!
# Adjacencies

After every turn the adjacencies are selected anew from the active evidence (`Env.links`). The
outline of a candidate is all that the selection looks at: the pair of interfaces, whether both
ends report it, and how late the latest report is.
-/

namespace Renga.Topology.Neighbors

open List Option

variable {env : Env} {db db' : Db} {row : Evidence} {remote : Uuid} {fact : Fact}

/-! ### Links -/

/-- The active evidence with the interface at the other end. -/
def Env.links (env : Env) (rows : List Evidence) : List (Evidence × Uuid) :=
  (rows.filter (·.stale = none)).filterMap fun row =>
    if env.localInterface row (·.present) then
      (env.matchRemoteInterface row.fact).remote.map (row, ·)
    else none

variable {rows : List Evidence}

theorem mem_links : (row, remote) ∈ env.links rows ↔
    row ∈ rows ∧ row.stale = none ∧ env.localInterface row (·.present) = true ∧
      (env.matchRemoteInterface row.fact).remote = some remote := by
  simp only [Env.links, mem_filterMap, mem_filter, decide_eq_true_eq]
  constructor
  · rintro ⟨_, ⟨mem, active⟩, is⟩
    split at is
    · rename_i present
      obtain ⟨_, its, same⟩ := map_eq_some_iff.1 is
      obtain ⟨rfl, rfl⟩ := Prod.mk.inj same
      exact ⟨mem, active, present, its⟩
    · cases is
  rintro ⟨mem, active, present, its⟩
  exact ⟨row, ⟨mem, active⟩, by rw [if_pos present, its]; rfl⟩

theorem subset_present_stablePortInterfaces : env.stablePortInterfaces fact ⊆ env.present := by
  unfold Env.stablePortInterfaces
  split
  · exact nil_subset _
  split
  · split
    · exact filter_sublist.subset
    · exact nil_subset _
  · exact nil_subset _

theorem subset_present_namedPortInterfaces {ids : List Uuid} :
    env.namedPortInterfaces ids fact ⊆ env.present := filter_sublist.subset

theorem subset_present_remoteInterfaces : (env.remoteInterfaces fact).1 ⊆ env.present := by
  unfold Env.remoteInterfaces
  split
  · exact subset_present_namedPortInterfaces
  · exact subset_present_stablePortInterfaces
  · exact subset_present_namedPortInterfaces
  · exact List.Subset.trans filter_sublist.subset subset_present_stablePortInterfaces

theorem present_of_matched (is : (env.matchRemoteInterface fact).remote = some remote) :
    (env.interfaces.get? remote).any (·.present) = true ∧ remote ≠ fact.localInterfaceId := by
  unfold Env.matchRemoteInterface at is
  dsimp only at is
  split at is
  · rename_i interface only
    obtain rfl := some.inj is
    have mem : interface ∈ (env.remoteInterfaces fact).1.filter
        (·.id ≠ fact.localInterfaceId) := by
      rw [only]
      exact mem_cons_self
    obtain ⟨mem, ne⟩ := mem_filter.1 mem
    obtain ⟨memRow, isPresent⟩ := mem_filter.1 (subset_present_remoteInterfaces mem)
    refine ⟨?_, of_decide_eq_true ne⟩
    rw [KeyTable.get?_of_mem memRow, any_some]
    exact isPresent
  · cases is
  cases is

theorem activeMatchedEvidence_reconcileActiveMatches :
    (db.reconcileActiveMatches env).activeMatchedEvidence env = env.links db.evidence.rows := by
  refine filterMap_congr fun row mem => ?_
  by_cases present : env.localInterface row (·.present) = true
  · -- The row is eligible, and its match was placed.
    have eligible : row ∈ db.active.filter (env.localInterface · (·.present)) :=
      mem_filter.2 ⟨mem, present⟩
    have distinct : ((db.active.filter (env.localInterface · (·.present))).map fun row =>
        (⟨row.id, env.matchRemoteInterface row.fact⟩ : NeighborMatch)).map
          NeighborMatch.evidenceId |>.Nodup := by
      rw [List.map_map]
      exact db.evidence.nodup.sublist ((filter_sublist.trans filter_sublist).map _)
    have placed := KeyTable.get?_foldl_place distinct (db.matches_.filter (·.evidenceId ∉
      (db.active.filter (env.localInterface · (¬·.present))).map Evidence.id))
      (mem_map.2 ⟨row, eligible, rfl⟩)
    have found : (db.reconcileActiveMatches env).matches_.get? row.id
        = some ⟨row.id, env.matchRemoteInterface row.fact⟩ := placed
    rw [found, bind_eq_bind, bind_some, if_pos present]
    cases is : (env.matchRemoteInterface row.fact).remote with
    | none => rfl
    | some =>
      rw [bind_eq_bind, bind_some, if_pos ⟨present, (present_of_matched is).1⟩]
      rfl
  rw [if_neg present]
  refine bind_eq_none_iff.2 fun _ _ => bind_eq_none_iff.2 fun _ _ => ?_
  exact if_neg fun both => present both.1

/-! ### Candidates -/

def pairOf (item : Evidence × Uuid) : Uuid × Uuid :=
  canonicalPair item.1.fact.localInterfaceId item.2

def candidateOf (evidence : List (Evidence × Uuid)) (pair : Uuid × Uuid) : Option Candidate :=
  let directed := evidence.map fun item => (item.1.fact.localInterfaceId, item.2)
  let items := evidence.filter (pairOf · = pair)
  ((items.map Prod.fst).argmax Evidence.primaryOrder).map fun primary =>
    { interfaceA := pair.1
      interfaceB := pair.2
      primary := primary
      confidence := if pair ∈ directed ∧ pair.swap ∈ directed then .reciprocal else .reported
      protocols := ((items.map fun item => item.1.fact.protocol.text).dedup).insertionSort
        (· ≤ ·) }

variable {evidence : List (Evidence × Uuid)}

theorem adjacencyCandidates_eq :
    adjacencyCandidates evidence
      = ((evidence.map pairOf).dedup).filterMap (candidateOf evidence) := by
  unfold adjacencyCandidates Evidence.groups
  rw [filterMap_map]
  rfl

theorem pair_of_candidateOf {pair : Uuid × Uuid} {candidate : Candidate}
    (is : candidateOf evidence pair = some candidate) :
    (candidate.interfaceA, candidate.interfaceB) = pair ∧
      ∃ item ∈ evidence, pairOf item = pair ∧ item.1 = candidate.primary := by
  obtain ⟨primary, top, rfl⟩ := map_eq_some_iff.1 is
  obtain ⟨item, mem, its⟩ := mem_map.1 (argmax_mem top)
  obtain ⟨mem, same⟩ := mem_filter.1 mem
  exact ⟨rfl, item, mem, of_decide_eq_true same, its⟩

/-- What the selection looks at, and what an adjacency says besides its primary evidence. -/
structure Outline where
  interfaceA : Uuid
  interfaceB : Uuid
  confidence : Confidence
  order : ObservationOrder
  protocols : List String
  deriving DecidableEq

@[inherit_doc Outline]
def Candidate.outline (candidate : Candidate) : Outline :=
  ⟨candidate.interfaceA, candidate.interfaceB, candidate.confidence, candidate.primary.fact.order,
    candidate.protocols⟩

/-- Every link of `one` is a link of `two`, read from whatever row. -/
def SubLinks (one two : List (Evidence × Uuid)) : Prop :=
  ∀ item ∈ one, ∃ item' ∈ two, item'.1.fact = item.1.fact ∧ item'.2 = item.2

def SameLinks (one two : List (Evidence × Uuid)) : Prop :=
  ∀ fact remote, (∃ item ∈ one, item.1.fact = fact ∧ item.2 = remote) ↔
    ∃ item ∈ two, item.1.fact = fact ∧ item.2 = remote

variable {one two : List (Evidence × Uuid)}

theorem SameLinks.forth (same : SameLinks one two) : SubLinks one two :=
  fun item mem => (same _ _).1 ⟨item, mem, rfl, rfl⟩

theorem SameLinks.back (same : SameLinks one two) : SubLinks two one :=
  fun item mem => (same _ _).2 ⟨item, mem, rfl, rfl⟩

theorem SubLinks.same (forth : SubLinks one two) (back : SubLinks two one) : SameLinks one two := by
  intro _ _
  constructor
  · rintro ⟨item, mem, rfl, rfl⟩
    exact forth item mem
  · rintro ⟨item, mem, rfl, rfl⟩
    exact back item mem

theorem SubLinks.mem_map {β : Type*} {f : Fact → Uuid → β} {b : β} (sub : SubLinks one two)
    (mem : b ∈ one.map fun item => f item.1.fact item.2) :
    b ∈ two.map fun item => f item.1.fact item.2 := by
  obtain ⟨item, memItem, rfl⟩ := List.mem_map.1 mem
  obtain ⟨item', mem', sameFact, sameRemote⟩ := sub item memItem
  exact List.mem_map.2 ⟨item', mem', by rw [sameFact, sameRemote]⟩

theorem SameLinks.mem_map_iff {β : Type*} {f : Fact → Uuid → β} {b : β}
    (same : SameLinks one two) : b ∈ one.map (fun item => f item.1.fact item.2) ↔
      b ∈ two.map fun item => f item.1.fact item.2 :=
  ⟨same.forth.mem_map, same.back.mem_map⟩

theorem SubLinks.filter (sub : SubLinks one two) (pair : Uuid × Uuid) :
    SubLinks (one.filter (pairOf · = pair)) (two.filter (pairOf · = pair)) := by
  intro item mem
  obtain ⟨mem, _⟩ := mem_filter.1 mem
  obtain ⟨item', mem', sameFact, sameRemote⟩ := sub item mem
  refine ⟨item', mem_filter.2 ⟨mem', ?_⟩, sameFact, sameRemote⟩
  rwa [pairOf, sameFact, sameRemote]

theorem sort_dedup_congr {α : Type*} [LinearOrder α] {l l' : List α}
    (same : ∀ a, a ∈ l ↔ a ∈ l') :
    l.dedup.insertionSort (· ≤ ·) = l'.dedup.insertionSort (· ≤ ·) := by
  have perm : l.dedup.Perm l'.dedup :=
    (perm_ext_iff_of_nodup (nodup_dedup _) (nodup_dedup _)).2 fun _ => by
      rw [mem_dedup, mem_dedup, same]
  refine List.Perm.eq_of_pairwise' (r := (· ≤ ·)) (pairwise_insertionSort _ _)
    (pairwise_insertionSort _ _) ?_
  exact (perm_insertionSort _ _).trans (perm.trans (perm_insertionSort _ _).symm)

variable {row' : Evidence}

theorem order_le_of_primaryOrder_le (le : row.primaryOrder ≤ row'.primaryOrder) :
    row.fact.order ≤ row'.fact.order := by
  rcases Prod.Lex.toLex_le_toLex.1 le with lt | ⟨same, -⟩
  · exact lt.le
  · exact same.le

variable {first : Candidate} {second : Candidate} {pair : Uuid × Uuid}

theorem SubLinks.order_le (sub : SubLinks one two) (isFirst : candidateOf one pair = some first)
    (isSecond : candidateOf two pair = some second) :
    first.primary.fact.order ≤ second.primary.fact.order := by
  obtain ⟨_, top, rfl⟩ := map_eq_some_iff.1 isFirst
  obtain ⟨_, top', rfl⟩ := map_eq_some_iff.1 isSecond
  obtain ⟨_, mem, rfl⟩ := List.mem_map.1 (argmax_mem top)
  obtain ⟨_, mem', sameFact, -⟩ := sub.filter pair _ mem
  have le := order_le_of_primaryOrder_le
    (le_of_mem_argmax (mem_map_of_mem (f := Prod.fst) mem') top')
  rwa [sameFact] at le

theorem SubLinks.exists_candidateOf (sub : SubLinks one two)
    (is : candidateOf one pair = some first) : ∃ second, candidateOf two pair = some second := by
  obtain ⟨_, top, rfl⟩ := map_eq_some_iff.1 is
  obtain ⟨_, mem, -⟩ := List.mem_map.1 (argmax_mem top)
  obtain ⟨_, mem', -⟩ := sub.filter pair _ mem
  obtain ⟨primary', top'⟩ := Evidence.exists_argmax Evidence.primaryOrder
    (mem_map_of_mem (f := Prod.fst) mem')
  exact ⟨_, map_eq_some_iff.2 ⟨primary', top', rfl⟩⟩

variable (same : SameLinks one two)
include same

theorem SameLinks.outline_eq (isFirst : candidateOf one pair = some first)
    (isSecond : candidateOf two pair = some second) : first.outline = second.outline := by
  have order := le_antisymm (same.forth.order_le isFirst isSecond)
    (same.back.order_le isSecond isFirst)
  have within := (same.forth.filter pair).same (same.back.filter pair)
  obtain ⟨_, _, rfl⟩ := map_eq_some_iff.1 isFirst
  obtain ⟨_, _, rfl⟩ := map_eq_some_iff.1 isSecond
  have protocols := sort_dedup_congr fun text =>
    within.mem_map_iff (f := fun fact _ => fact.protocol.text) (b := text)
  have directed : ∀ pair, pair ∈ one.map (fun item => (item.1.fact.localInterfaceId, item.2)) ↔
      pair ∈ two.map fun item => (item.1.fact.localInterfaceId, item.2) := fun _ =>
    same.mem_map_iff (f := fun fact remote => (fact.localInterfaceId, remote))
  simp only [Candidate.outline, Outline.mk.injEq, true_and, directed]
  exact ⟨order, protocols⟩

theorem SameLinks.map_candidateOf {α : Type} {f : Candidate → α}
    (each : ∀ {first second}, candidateOf one pair = some first →
      candidateOf two pair = some second → f first = f second) :
    (candidateOf one pair).map f = (candidateOf two pair).map f := by
  cases isFirst : candidateOf one pair with
  | none =>
    cases isSecond : candidateOf two pair with
    | none => rfl
    | some =>
      obtain ⟨_, is⟩ := same.back.exists_candidateOf isSecond
      rw [isFirst] at is
      cases is
  | some =>
    obtain ⟨_, isSecond⟩ := same.forth.exists_candidateOf isFirst
    rw [isSecond, map_some, map_some, each isFirst isSecond]

theorem SameLinks.perm_pairs : ((one.map pairOf).dedup).Perm (two.map pairOf).dedup := by
  refine (perm_ext_iff_of_nodup (nodup_dedup _) (nodup_dedup _)).2 fun _ => ?_
  rw [mem_dedup, mem_dedup]
  exact same.mem_map_iff (f := fun fact remote => canonicalPair fact.localInterfaceId remote)

theorem SameLinks.perm_outlines :
    ((adjacencyCandidates one).map Candidate.outline).Perm
      ((adjacencyCandidates two).map Candidate.outline) := by
  rw [adjacencyCandidates_eq, adjacencyCandidates_eq, map_filterMap, map_filterMap,
    filterMap_congr fun _ _ => same.map_candidateOf same.outline_eq]
  exact same.perm_pairs.filterMap _

omit same

theorem eq_of_pair_eq (memFirst : first ∈ adjacencyCandidates evidence)
    (memSecond : second ∈ adjacencyCandidates evidence)
    (sameA : first.interfaceA = second.interfaceA) (sameB : first.interfaceB = second.interfaceB) :
    first = second := by
  rw [adjacencyCandidates_eq] at memFirst memSecond
  obtain ⟨pair, -, isFirst⟩ := mem_filterMap.1 memFirst
  obtain ⟨pair', -, isSecond⟩ := mem_filterMap.1 memSecond
  have same : pair = pair' := by
    rw [← (pair_of_candidateOf isFirst).1, ← (pair_of_candidateOf isSecond).1, sameA, sameB]
  rw [same, isSecond] at isFirst
  exact (some.inj isFirst).symm

theorem nodup_adjacencyCandidates : (adjacencyCandidates evidence).Nodup := by
  rw [adjacencyCandidates_eq]
  refine (nodup_dedup _).filterMap fun _ _ _ is is' => ?_
  rw [← (pair_of_candidateOf is).1, ← (pair_of_candidateOf is').1]

/-! ### The selection -/

/-- The rank of an outline: reciprocal first, then the latest, then by the interfaces. -/
def Outline.rank (outline : Outline) : ℕ ×ₗ ObservationOrderᵒᵈ ×ₗ Uuid ×ₗ Uuid :=
  toLex (outline.confidence.rank, toLex (OrderDual.toDual outline.order,
    toLex (outline.interfaceA, outline.interfaceB)))

theorem adjacencyPrecedes_iff :
    adjacencyPrecedes first second = true ↔ first.outline.rank ≤ second.outline.rank := by
  unfold adjacencyPrecedes Outline.rank
  simp only [Prod.Lex.toLex_le_toLex, Candidate.outline, OrderDual.toDual_lt_toDual]
  by_cases confidence : first.confidence.rank = second.confidence.rank
  · by_cases order : first.primary.fact.order = second.primary.fact.order
    · by_cases interface : first.interfaceA = second.interfaceA
      · simp [confidence, order, interface]
      simp [confidence, order, interface]
    · simp [confidence, order]
  · simp [confidence]

theorem interfaces_eq_of_rank_eq {first second : Outline} (same : first.rank = second.rank) :
    first.interfaceA = second.interfaceA ∧ first.interfaceB = second.interfaceB := by
  have tails := congrArg (fun rank => ofLex (ofLex (ofLex rank).2).2) same
  exact Prod.mk.inj tails

def Outline.ends (outline : Outline) : List Uuid := [outline.interfaceA, outline.interfaceB]

def selectOutlines (outlines : List Outline) : List Outline :=
  Greedy.select Outline.ends (outlines.insertionSort fun one two => one.rank ≤ two.rank)

theorem map_outline_select {candidates : List Candidate} :
    (selectNonConflictingAdjacencies candidates).map Candidate.outline
      = selectOutlines (candidates.map Candidate.outline) := by
  have ends : ∀ candidate : Candidate, candidate.outline.ends = candidate.ends := fun _ => rfl
  refine (Greedy.map_select ends).trans (congrArg _ ?_)
  exact map_insertionSort _ _ _ _ fun _ _ _ _ => adjacencyPrecedes_iff

theorem pairwise_candidates (evidence : List (Evidence × Uuid)) :
    ((adjacencyCandidates evidence).insertionSort fun first second =>
      adjacencyPrecedes first second).Pairwise fun first second =>
        adjacencyPrecedes first second = true ∧ ¬adjacencyPrecedes second first = true := by
  refine Greedy.pairwise_insertionSort (fun first second => adjacencyPrecedes first second = true)
    ?_ ?_ nodup_adjacencyCandidates ?_
  · intro first second
    rw [adjacencyPrecedes_iff, adjacencyPrecedes_iff]
    exact le_total _ _
  · intro first second _
    rw [adjacencyPrecedes_iff, adjacencyPrecedes_iff, adjacencyPrecedes_iff]
    exact le_trans
  intro _ memFirst _ memSecond before after
  rw [adjacencyPrecedes_iff] at before after
  obtain ⟨sameA, sameB⟩ := interfaces_eq_of_rank_eq (le_antisymm before after)
  exact eq_of_pair_eq memFirst memSecond sameA sameB

/-- A selection of candidates is a maximal matching: no interface is in two of them, and what is
not selected shares an interface with a selected candidate before it. -/
structure IsMaximalMatching (candidates selected : List Candidate) : Prop where
  selects : ∀ candidate ∈ selected, candidate ∈ candidates
  apart : selected.Pairwise (Greedy.Apart Candidate.ends)
  maximal : ∀ candidate ∈ candidates, candidate ∉ selected → ∃ other ∈ selected,
    adjacencyPrecedes other candidate = true ∧ adjacencyPrecedes candidate other = false ∧
      ∃ interface, interface ∈ other.ends ∧ interface ∈ candidate.ends

theorem isMaximalMatching_select :
    IsMaximalMatching (adjacencyCandidates evidence)
      (selectNonConflictingAdjacencies (adjacencyCandidates evidence)) where
  selects := fun _ mem => (mem_insertionSort _).1 (Greedy.mem_of_mem_select mem)
  apart := Greedy.pairwise_select _
  maximal := by
    intro _ mem out
    have sorted := pairwise_candidates evidence
    by_contra none
    refine out (Greedy.mem_select_of_apart sorted ((mem_insertionSort _).2 mem) ?_)
    rintro other memOther ⟨before, after⟩ interface its own
    exact none ⟨other, memOther, before, by simpa using after, interface, its, own⟩

theorem perm_sort_outlines_congr {outlines outlines' : List Outline}
    (perm : outlines.Perm outlines')
    (distinct : ∀ one ∈ outlines, ∀ two ∈ outlines, one.interfaceA = two.interfaceA →
      one.interfaceB = two.interfaceB → one = two) :
    selectOutlines outlines = selectOutlines outlines' := by
  have trans : IsTrans Outline fun one two => one.rank ≤ two.rank := ⟨fun _ _ _ => le_trans⟩
  refine congrArg (Greedy.select Outline.ends) (List.Perm.eq_of_pairwise ?_
    (pairwise_insertionSort _ outlines) (pairwise_insertionSort _ outlines') ?_)
  · intro one two memOne memTwo le ge
    obtain ⟨sameA, sameB⟩ := interfaces_eq_of_rank_eq (le_antisymm le ge)
    rw [mem_insertionSort] at memOne memTwo
    exact distinct one memOne two (perm.mem_iff.2 memTwo) sameA sameB
  · exact (perm_insertionSort _ _).trans (perm.trans (perm_insertionSort _ _).symm)

theorem SameLinks.select_eq (same : SameLinks one two) :
    (selectNonConflictingAdjacencies (adjacencyCandidates one)).map Candidate.outline
      = (selectNonConflictingAdjacencies (adjacencyCandidates two)).map Candidate.outline := by
  rw [map_outline_select, map_outline_select]
  refine perm_sort_outlines_congr same.perm_outlines ?_
  intro _ memFirst _ memSecond sameA sameB
  obtain ⟨_, mem, rfl⟩ := List.mem_map.1 memFirst
  obtain ⟨_, mem', rfl⟩ := List.mem_map.1 memSecond
  rw [eq_of_pair_eq mem mem' sameA sameB]

/-! ### The order of the rows -/

theorem id_eq_of_primaryOrder_eq (same : row.primaryOrder = row'.primaryOrder) : row.id = row'.id :=
  congrArg (fun order =>
    (ofLex (ofLex (ofLex (ofLex (ofLex (ofLex order).2).2).2).2).2).2) same

variable (perm : one.Perm two) (unique : ∀ item ∈ one, ∀ item' ∈ one, item.1.id = item'.1.id →
  item.1 = item'.1)

include perm unique in
theorem candidateOf_congr : candidateOf one pair = candidateOf two pair := by
  have same : SameLinks one two := fun _ _ => by
    simp only [perm.mem_iff]
  have members : ∀ row, row ∈ (one.filter (pairOf · = pair)).map Prod.fst ↔
      row ∈ (two.filter (pairOf · = pair)).map Prod.fst := fun row =>
    ((perm.filter _).map _).mem_iff
  have distinct : ∀ row ∈ (one.filter (pairOf · = pair)).map Prod.fst,
      ∀ row' ∈ (one.filter (pairOf · = pair)).map Prod.fst,
        row.primaryOrder = row'.primaryOrder → row = row' := by
    intro row mem row' mem' equal
    obtain ⟨item, memItem, rfl⟩ := mem_map.1 mem
    obtain ⟨item', memItem', rfl⟩ := mem_map.1 mem'
    exact unique item (mem_of_mem_filter memItem) item' (mem_of_mem_filter memItem')
      (id_eq_of_primaryOrder_eq equal)
  have primary : ((one.filter (pairOf · = pair)).map Prod.fst).argmax Evidence.primaryOrder
      = ((two.filter (pairOf · = pair)).map Prod.fst).argmax Evidence.primaryOrder := by
    ext row
    rw [← mem_def, ← mem_def, Evidence.mem_argmax_iff_of_distinct distinct,
      Evidence.mem_argmax_iff_of_distinct]
    · simp only [members]
    simpa only [members] using distinct
  suffices mapped : (candidateOf one pair).map id = (candidateOf two pair).map id by
    simpa using mapped
  refine same.map_candidateOf fun isFirst isSecond => ?_
  have outline := same.outline_eq isFirst isSecond
  obtain ⟨row, top, rfl⟩ := map_eq_some_iff.1 isFirst
  obtain ⟨row', top', rfl⟩ := map_eq_some_iff.1 isSecond
  rw [primary] at top
  have same' : row = row' := some.inj (top.symm.trans top')
  simp only [Candidate.outline, Outline.mk.injEq, true_and] at outline
  simp only [id, same', outline.1, outline.2.2]

include perm unique in
theorem adjacencyCandidates_perm : (adjacencyCandidates one).Perm (adjacencyCandidates two) := by
  rw [adjacencyCandidates_eq, adjacencyCandidates_eq,
    filterMap_congr fun _ _ => candidateOf_congr perm unique]
  exact ((perm.map _).dedup).filterMap _

include perm unique in
theorem select_eq_of_perm :
    selectNonConflictingAdjacencies (adjacencyCandidates one)
      = selectNonConflictingAdjacencies (adjacencyCandidates two) := by
  have candidates := adjacencyCandidates_perm perm unique
  refine congrArg (Greedy.select Candidate.ends) (List.Perm.eq_of_pairwise ?_
    (pairwise_candidates one) (pairwise_candidates two) ?_)
  · rintro _ _ - - ⟨-, not⟩ ⟨before, -⟩
    exact absurd before not
  exact (perm_insertionSort _ _).trans
    (candidates.trans (perm_insertionSort _ _).symm)

theorem links_perm {rows' : List Evidence} (perm : rows.Perm rows') :
    (env.links rows).Perm (env.links rows') := (perm.filter _).filterMap _

theorem unique_links {evidence : KeyTable Uuid Evidence Evidence.id} :
    ∀ item ∈ env.links evidence.rows, ∀ item' ∈ env.links evidence.rows,
      item.1.id = item'.1.id → item.1 = item'.1 :=
  fun _ mem _ mem' same =>
    KeyTable.eq_of_key_eq (mem_links.1 mem).1 (mem_links.1 mem').1 same

theorem subLinks_of_activeFacts (sub : ∀ fact, fact ∈ db.activeFacts → fact ∈ db'.activeFacts) :
    SubLinks (env.links db.evidence.rows) (env.links db'.evidence.rows) := by
  rintro ⟨row, _⟩ mem
  obtain ⟨memRow, active, present, its⟩ := mem_links.1 mem
  obtain ⟨row', memRow', active', sameFact⟩ :=
    mem_activeFacts.1 (sub _ (mem_activeFacts.2 ⟨row, memRow, active, rfl⟩))
  refine ⟨(row', _), mem_links.2 ⟨memRow', active', ?_, ?_⟩, sameFact, rfl⟩
  · rw [Env.localInterface, sameFact]
    exact present
  rw [sameFact]
  exact its

/-- What an adjacency says, besides naming its primary evidence. -/
structure Link where
  interfaceA : Uuid
  interfaceB : Uuid
  confidence : Confidence
  lastObservedAt : Time
  protocols : List String
  deriving DecidableEq

@[inherit_doc Link]
def Adjacency.link (adjacency : Adjacency) : Link :=
  ⟨adjacency.interfaceA, adjacency.interfaceB, adjacency.confidence, adjacency.lastObservedAt,
    adjacency.protocols⟩

def Outline.link (outline : Outline) : Link :=
  ⟨outline.interfaceA, outline.interfaceB, outline.confidence, (ofLex outline.order).1,
    outline.protocols⟩

theorem map_link_adjacencies {selected : List Candidate} :
    (selected.map Candidate.adjacency).map Adjacency.link
      = (selected.map Candidate.outline).map Outline.link := by
  rw [List.map_map, List.map_map]
  rfl

theorem adjacencies_expire (env : Env) (db : Db) (asOf : Time) :
    (db.expire env asOf).activeMatchedEvidence env = env.links (db.expire env asOf).evidence.rows ∧
      (db.expire env asOf).adjacencies = (selectNonConflictingAdjacencies (adjacencyCandidates
        (env.links (db.expire env asOf).evidence.rows))).map Candidate.adjacency := by
  have links : (db.expire env asOf).activeMatchedEvidence env
      = env.links (db.expire env asOf).evidence.rows :=
    activeMatchedEvidence_reconcileActiveMatches
  refine ⟨links, ?_⟩
  rw [← links]
  rfl

theorem adjacencies_rebuild :
    ((db.reconcileActiveMatches env).rebuildAdjacencies env).adjacencies
      = (selectNonConflictingAdjacencies (adjacencyCandidates
        (env.links db.evidence.rows))).map Candidate.adjacency := by
  rw [← activeMatchedEvidence_reconcileActiveMatches]
  rfl

/-- **Neighbors settle, whatever the order of arrival.**  Two runs in which the same observations
arrive, in any order and any number of times and with sweeps between, and which end at the same
time, have the same active evidence: what is the latest about its neighbor, has not expired, and
is not before the latest complete report of its source for its resource.  The adjacencies are a
maximal matching of the candidates this evidence makes, in whatever order its rows are read. -/
theorem neighbors_settle (env : Env) (ids ids' : Ids) (ops ops' : List Op) (asOf : Time)
    (upTo : UpTo env asOf ops) (upTo' : UpTo env asOf ops')
    (same : ∀ arrival, arrival ∈ arrivalsOf ops ↔ arrival ∈ arrivalsOf ops') :
    (∀ fact, fact ∈ (run env ids ops).activeFacts ↔ fact ∈ (run env ids' ops').activeFacts) ∧
    (∀ fact, fact ∈ (run env ids ops).activeFacts ↔
      fact ∈ env.facts (arrivalsOf ops) ∧
      (∀ other ∈ env.facts (arrivalsOf ops),
        other.identity = fact.identity → other.order ≤ fact.order) ∧
      asOf < fact.expiresAt ∧
      ∀ event ∈ env.boundaries (arrivalsOf ops), event.sourceId = fact.sourceId →
        env.interfaces.resourceOf fact.localInterfaceId = some event.resourceId →
          event.order ≤ fact.order) ∧
    (∃ selected, (run env ids ops).adjacencies = selected.map Candidate.adjacency ∧
      IsMaximalMatching (adjacencyCandidates ((run env ids ops).activeMatchedEvidence env))
        selected) ∧
    (∀ db : Db, db.evidence.rows.Perm (run env ids ops).evidence.rows →
      ((db.reconcileActiveMatches env).rebuildAdjacencies env).adjacencies
        = (run env ids ops).adjacencies) ∧
    (run env ids ops).adjacencies.map Adjacency.link
      = (run env ids' ops').adjacencies.map Adjacency.link := by
  have active : ∀ fact, fact ∈ (run env ids ops).activeFacts ↔
      fact ∈ (run env ids' ops').activeFacts := by
    intro fact
    rw [upTo.mem_activeFacts ids, upTo'.mem_activeFacts ids']
    have facts : ∀ fact, fact ∈ env.facts (arrivalsOf ops) ↔ fact ∈ env.facts (arrivalsOf ops') :=
      fun fact => by simp only [mem_facts, same]
    have events : ∀ event, event ∈ env.boundaries (arrivalsOf ops) ↔
        event ∈ env.boundaries (arrivalsOf ops') := fun event => by
      simp only [Env.boundaries, mem_filterMap, same]
    rw [facts]
    refine and_congr_right fun _ => and_congr_left fun _ => ⟨fun stands => ?_, fun stands => ?_⟩
    · exact stands.anti (fun fact => (facts fact).2) (marks_subset (fun event => (events event).2))
    · exact stands.anti (fun fact => (facts fact).1) (marks_subset (fun event => (events event).1))
  obtain ⟨next, is⟩ := upTo.run_eq ids
  obtain ⟨next', is'⟩ := upTo'.run_eq ids'
  obtain ⟨links, adjacencies⟩ := adjacencies_expire env next asOf
  obtain ⟨-, adjacencies'⟩ := adjacencies_expire env next' asOf
  rw [← is] at links adjacencies
  rw [← is'] at adjacencies'
  refine ⟨active, fun _ => ?_, ⟨_, adjacencies, ?_⟩, fun _ perm => ?_, ?_⟩
  · rw [upTo.mem_activeFacts ids]
    refine and_congr_right fun _ => ?_
    constructor
    · rintro ⟨stands, unexpired⟩
      refine ⟨fun other mem about => not_lt.1 fun later => ?_, unexpired,
        fun event mem source resource => not_lt.1 fun later => ?_⟩
      · exact stands.latest ⟨other, mem, about, later⟩
      refine stands.within ⟨event.mark, mem_marks.2 ⟨event, mem, ?_, rfl⟩, ?_, later⟩
      · obtain ⟨_, -, its⟩ := mem_filterMap.1 mem
        exact (about_of_boundary its).2.2
      · exact Prod.ext resource.symm source
    rintro ⟨latest, unexpired, within⟩
    refine ⟨⟨?_, ?_⟩, unexpired⟩
    · rintro ⟨other, mem, about, later⟩
      exact later.not_ge (latest other mem about)
    rintro ⟨_, mem, its, later⟩
    obtain ⟨event, memEvent, -, rfl⟩ := mem_marks.1 mem
    exact later.not_ge (within event memEvent (congrArg Prod.snd its)
      (congrArg Prod.fst its).symm)
  · rw [links]
    exact isMaximalMatching_select
  · rw [adjacencies_rebuild, adjacencies]
    exact congrArg (map Candidate.adjacency)
      (select_eq_of_perm (links_perm perm) unique_links)
  rw [adjacencies, adjacencies', map_link_adjacencies, map_link_adjacencies]
  exact congrArg (map Outline.link) (SubLinks.same
    (subLinks_of_activeFacts fun fact => (active fact).1)
    (subLinks_of_activeFacts fun fact => (active fact).2)).select_eq

def plainTexts : Texts where
  names := Inventory.plainNames
  lower := id
  castInet := fun _ => none

/-- A host and a switch with a link between them, which both report; the host once before, when it
was plugged in elsewhere. -/
def linkedEnv : Env where
  texts := plainTexts
  interfaces := ⟨[⟨1, 10, "eth0", none, .up⟩, ⟨2, 20, "port1", none, .up⟩,
    ⟨3, 20, "port2", none, .up⟩], by decide⟩
  resources := [⟨10, "host", none⟩, ⟨20, "switch", none⟩]
  sources := ⟨[⟨5, some "complete"⟩, ⟨6, none⟩], by decide⟩
  observations :=
    let neighbor : String → String → ReportedNeighbor := fun chassis port =>
      { protocol := .lldp, remoteChassisId := chassis, remoteChassisIdKind := some .name,
        remotePortId := port, remotePortIdKind := some .name, ttlSeconds := 120 }
    ⟨[⟨100, 5, 0, [⟨"eth0", [neighbor "switch" "port2"]⟩], true⟩,
      ⟨101, 5, 1000, [⟨"eth0", [neighbor "switch" "port1"]⟩], true⟩,
      ⟨102, 6, 2000, [⟨"port1", [neighbor "host" "eth0"]⟩], false⟩], by decide⟩

def inOrder : List Op :=
  [.reconcile 100 10 2500, .reconcile 101 10 2600] ++ [.reconcile 102 20 2700]

def backwards : List Op :=
  [.reconcile 102 20 2500, .reconcile 101 10 2600, .reconcile 100 10 2600] ++ [.expire 2700]

/-- The link is found whichever end reports first, and the earlier report is withdrawn whenever it
comes in. -/
theorem link_settles :
    (run linkedEnv Ids.counted inOrder).adjacencies.map Adjacency.link
      = (run linkedEnv Ids.counted backwards).adjacencies.map Adjacency.link ∧
    (run linkedEnv Ids.counted inOrder).adjacencies.map
      (fun link => (link.interfaceA, link.interfaceB)) = [(1, 2)] := by
  have first : UpTo linkedEnv 2700 inOrder :=
    ⟨⟨_, _, rfl, by decide +kernel, rfl⟩, by decide +kernel⟩
  have second : UpTo linkedEnv 2700 backwards := ⟨⟨_, _, rfl, rfl, rfl⟩, by decide +kernel⟩
  have same : ∀ arrival, arrival ∈ arrivalsOf inOrder ↔ arrival ∈ arrivalsOf backwards := by
    have perm : (arrivalsOf inOrder).Perm (arrivalsOf backwards) := by decide
    exact fun _ => perm.mem_iff
  exact ⟨(neighbors_settle linkedEnv Ids.counted Ids.counted inOrder backwards 2700 first second
    same).2.2.2.2, by decide +kernel⟩

end Renga.Topology.Neighbors
