import Mathlib.Data.List.Dedup
import Renga.Organizations

/-!
# Power paths

`Renga.Power.Paths`.  All ports are walked together, one cable at a time: the frontier holds for
each path that has not ended the port to follow next and the ports it has passed.
-/

namespace Renga.Power

open List

/-- An outlet of a PDU, with the inlet that feeds it when its type names one. -/
structure Outlet where
  id : Uuid
  inletPortId : Option Uuid
deriving DecidableEq

/-- A panel feed, which a path is to reach. -/
structure Feed where
  id : Uuid
deriving DecidableEq

/-- What a power cable leads to. -/
inductive Plug where
  | feed (feed : Feed)
  | outlet (outlet : Outlet)
deriving DecidableEq

/-- What is plugged in at the far end of a port's cable. -/
abbrev Cables := Uuid → Option Plug

namespace Paths

/-- Why a path ends before it reaches a feed. -/
inductive Stop where
  | notConnected
  | inletUnknown
  | inletNotConnected
  | loop
  | tooDeep
deriving DecidableEq

/-- What `for_ports/2` says of a port: the outlets on the way up, and the feed or the stop. -/
structure Path where
  port : Uuid
  outlets : List Outlet := []
  feed : Option Feed := none
  stop : Option Stop := none
deriving DecidableEq

def maxHops : ℕ := 8

/-- An entry of the frontier: the port to follow next and the path it extends, with the ports
the path has passed. -/
structure Entry where
  port : Uuid
  path : Uuid
  seen : List Uuid
deriving DecidableEq

def stop (paths : Uuid → Path) (pathId : Uuid) (reason : Stop) : Uuid → Path :=
  Function.update paths pathId { paths pathId with stop := some reason }

/-- `Map.put/3` on the frontier, whose keys are the port and the path. -/
def put (next : List Entry) (entry : Entry) : List Entry :=
  next.filter (fun other => (other.port, other.path) ≠ (entry.port, entry.path)) ++ [entry]

/-- `follow_inlet/5`: an inlet the path has passed already is a loop. -/
def followInlet (paths : Uuid → Path) (next : List Entry) (pathId : Uuid) (seen : List Uuid) :
    Option Uuid → (Uuid → Path) × List Entry
  | none => (stop paths pathId .inletUnknown, next)
  | some inletId =>
    if inletId ∈ seen then (stop paths pathId .loop, next)
    else (paths, put next ⟨inletId, pathId, inletId :: seen⟩)

/-- `step/5`: one path goes along the cable of its port. -/
def step (acc : (Uuid → Path) × List Entry) (cable : Option Plug) (pathId : Uuid)
    (seen : List Uuid) (hops : ℕ) : (Uuid → Path) × List Entry :=
  let path := acc.1 pathId
  match cable with
  | none => (stop acc.1 pathId (if hops = 0 then .notConnected else .inletNotConnected), acc.2)
  | some (.feed feed) => (Function.update acc.1 pathId { path with feed := some feed }, acc.2)
  | some (.outlet outlet) =>
    followInlet (Function.update acc.1 pathId { path with outlets := path.outlets ++ [outlet] })
      acc.2 pathId seen outlet.inletPortId

/-- `walk/4`: a level takes every path of the frontier along one cable. -/
def walk (cables : Cables) (paths : Uuid → Path) (frontier : List Entry) (hops : ℕ) : Uuid → Path :=
  if frontier = [] then paths
  else if maxHops ≤ hops then
    frontier.foldl (fun paths entry => stop paths entry.path .tooDeep) paths
  else
    let stepped := frontier.foldl (fun acc entry =>
      step acc (cables entry.port) entry.path entry.seen hops) (paths, [])
    walk cables stepped.1 stepped.2 (hops + 1)
termination_by maxHops - hops

/-- `for_ports/2`: every port starts a path of its own. -/
def forPorts (cables : Cables) (ports : List Uuid) : List Path :=
  let frontier := ports.dedup.map fun port => ⟨port, port, [port]⟩
  ports.map (walk cables (fun port => { port }) frontier 0)

/-! ### The way up from one port -/

/-- How the way up ends. -/
inductive Ending where
  | feed (feed : Feed)
  | stop (reason : Stop)
deriving DecidableEq

/-- The way from a port upward, once the ports `passed` are behind: the outlets on it, and how
it ends.  It has come by one cable less than the ports it has passed. -/
inductive Chain (cables : Cables) : List Uuid → Uuid → List Outlet → Ending → Prop
  | tooDeep {passed : List Uuid} {port : Uuid} (far : passed.length = maxHops + 1) :
      Chain cables passed port [] (.stop .tooDeep)
  | notConnected {passed : List Uuid} {port : Uuid} (first : passed.length = 1)
      (none : cables port = none) : Chain cables passed port [] (.stop .notConnected)
  | inletNotConnected {passed : List Uuid} {port : Uuid} (later : 1 < passed.length)
      (near : passed.length ≤ maxHops) (none : cables port = none) :
      Chain cables passed port [] (.stop .inletNotConnected)
  | feed {passed : List Uuid} {port : Uuid} {feed : Feed} (near : passed.length ≤ maxHops)
      (plugged : cables port = some (.feed feed)) : Chain cables passed port [] (.feed feed)
  | inletUnknown {passed : List Uuid} {port : Uuid} {outlet : Outlet}
      (near : passed.length ≤ maxHops) (plugged : cables port = some (.outlet outlet))
      (unknown : outlet.inletPortId = none) :
      Chain cables passed port [outlet] (.stop .inletUnknown)
  | loop {passed : List Uuid} {port inletId : Uuid} {outlet : Outlet}
      (near : passed.length ≤ maxHops) (plugged : cables port = some (.outlet outlet))
      (inlet : outlet.inletPortId = some inletId) (back : inletId ∈ passed) :
      Chain cables passed port [outlet] (.stop .loop)
  | follow {passed : List Uuid} {port inletId : Uuid} {outlet : Outlet} {outlets : List Outlet}
      {ending : Ending} (near : passed.length ≤ maxHops)
      (plugged : cables port = some (.outlet outlet)) (inlet : outlet.inletPortId = some inletId)
      (new : inletId ∉ passed) (rest : Chain cables (inletId :: passed) inletId outlets ending) :
      Chain cables passed port (outlet :: outlets) ending

/-- What a port shows: the end of the way, or the outlet and the inlet it leads on to. -/
inductive Look where
  | ends (outlets : List Outlet) (ending : Ending)
  | on (outlet : Outlet) (inletId : Uuid)

/-- What the port shows to a path that has passed `passed`. -/
def look (cables : Cables) (passed : List Uuid) (port : Uuid) : Look :=
  match cables port with
  | none => .ends [] (.stop (if passed.length = 1 then .notConnected else .inletNotConnected))
  | some (.feed feed) => .ends [] (.feed feed)
  | some (.outlet outlet) =>
    match outlet.inletPortId with
    | none => .ends [outlet] (.stop .inletUnknown)
    | some inletId =>
      if inletId ∈ passed then .ends [outlet] (.stop .loop) else .on outlet inletId

/-- The way up as a function, with the number of cables still allowed. -/
def climb (cables : Cables) : ℕ → List Uuid → Uuid → List Outlet × Ending
  | 0, _, _ => ([], .stop .tooDeep)
  | left + 1, passed, port =>
    match look cables passed port with
    | .ends outlets ending => (outlets, ending)
    | .on outlet inletId =>
      let rest := climb cables left (inletId :: passed) inletId
      (outlet :: rest.1, rest.2)

section Chain

variable {cables : Cables} {passed : List Uuid} {port : Uuid} {outlets : List Outlet}
  {ending : Ending}

theorem chain_cases (some_ : passed ≠ []) (near : passed.length ≤ maxHops) :
    Chain cables passed port outlets ending ↔
      look cables passed port = .ends outlets ending ∨
      ∃ outlet inletId rest, look cables passed port = .on outlet inletId ∧
        outlets = outlet :: rest ∧ Chain cables (inletId :: passed) inletId rest ending := by
  have pos : 0 < passed.length := length_pos_iff.2 some_
  constructor
  · intro chain
    cases chain with
    | tooDeep => omega
    | notConnected first none => exact .inl (by simp [look, none, first])
    | inletNotConnected later _ none => exact .inl (by simp [look, none, Nat.ne_of_gt later])
    | feed _ plugged => exact .inl (by simp [look, plugged])
    | inletUnknown _ plugged unknown => exact .inl (by simp [look, plugged, unknown])
    | loop _ plugged inlet back => exact .inl (by simp [look, plugged, inlet, back])
    | follow _ plugged inlet new rest =>
      exact .inr ⟨_, _, _, by simp [look, plugged, inlet, new], rfl, rest⟩
  unfold look
  cases plugged : cables port with
  | none =>
    rintro (shows | ⟨_, _, _, shows, -⟩) <;> cases shows
    by_cases first : passed.length = 1
    · rw [if_pos first]
      exact .notConnected first plugged
    rw [if_neg first]
    exact .inletNotConnected (by omega) near plugged
  | some plug =>
    cases plug with
    | feed =>
      rintro (shows | ⟨_, _, _, shows, -⟩) <;> cases shows
      exact .feed near plugged
    | outlet outlet =>
      cases inlet : outlet.inletPortId with
      | none =>
        simp only [inlet]
        rintro (shows | ⟨_, _, _, shows, -⟩) <;> cases shows
        exact .inletUnknown near plugged inlet
      | some inletId =>
        by_cases back : inletId ∈ passed
        · simp only [inlet, if_pos back]
          rintro (shows | ⟨_, _, _, shows, -⟩) <;> cases shows
          exact .loop near plugged inlet back
        simp only [inlet, if_neg back]
        rintro (shows | ⟨_, _, _, shows, rfl, chain⟩) <;> cases shows
        exact .follow near plugged inlet back chain

/-- **There is one way up from a port**, and `climb` finds it. -/
theorem chain_iff {left : ℕ} (length : passed.length + left = maxHops + 1)
    (some_ : passed ≠ []) : Chain cables passed port outlets ending ↔
      climb cables left passed port = (outlets, ending) := by
  induction left generalizing passed port outlets with
  | zero =>
    constructor
    · intro chain
      cases chain with
      | tooDeep => rfl
      | notConnected first => rw [first] at length; cases length
      | inletNotConnected | feed | inletUnknown | loop | follow => omega
    intro climbed
    cases climbed
    exact .tooDeep length
  | succ left ih =>
    rw [chain_cases some_ (by omega), climb]
    cases look cables passed port with
    | ends => simp
    | on outlet inletId =>
      have rest : ∀ outlets, Chain cables (inletId :: passed) inletId outlets ending ↔
          climb cables left (inletId :: passed) inletId = (outlets, ending) := fun _ =>
        ih (by rw [length_cons]; omega) (cons_ne_nil _ _)
      simp only [reduceCtorEq, false_or, Look.on.injEq, Prod.mk.injEq]
      constructor
      · rintro ⟨_, _, _, ⟨rfl, rfl⟩, rfl, chain⟩
        rw [(rest _).1 chain]
        exact ⟨rfl, rfl⟩
      rintro ⟨rfl, rfl⟩
      exact ⟨outlet, inletId, _, ⟨rfl, rfl⟩, rfl, (rest _).2 rfl⟩

end Chain

/-! ### One path in the batch -/

/-- The path once it has gone the rest of the way. -/
def Path.extend (path : Path) (way : List Outlet × Ending) : Path :=
  match way.2 with
  | .feed feed => { path with outlets := path.outlets ++ way.1, feed := some feed }
  | .stop reason => { path with outlets := path.outlets ++ way.1, stop := some reason }

/-- The path after one cable. -/
def advance (cables : Cables) (entry : Entry) (path : Path) : Path :=
  match look cables entry.seen entry.port with
  | .ends outlets ending => path.extend (outlets, ending)
  | .on outlet _ => { path with outlets := path.outlets ++ [outlet] }

/-- The entry of the next level, unless the path ends here. -/
def following (cables : Cables) (entry : Entry) : Option Entry :=
  match look cables entry.seen entry.port with
  | .ends _ _ => none
  | .on _ inletId => some ⟨inletId, entry.path, inletId :: entry.seen⟩

section Batch

variable {cables : Cables} {hops : ℕ} {entry : Entry} {frontier : List Entry}

theorem following_path {next : Entry} (follows : following cables entry = some next) :
    next.path = entry.path ∧ next.seen.length = entry.seen.length + 1 := by
  unfold following at follows
  split at follows
  · cases follows
  cases follows
  exact ⟨rfl, rfl⟩

theorem put_eq {next : List Entry} (new : ∀ other ∈ next, other.path ≠ entry.path) :
    put next entry = next ++ [entry] := by
  rw [put, filter_eq_self.2]
  intro other mem
  exact decide_eq_true fun same => new other mem (Prod.mk.inj same).2

theorem step_eq (acc : (Uuid → Path) × List Entry) (length : entry.seen.length = hops + 1)
    (new : ∀ other ∈ acc.2, other.path ≠ entry.path) :
    step acc (cables entry.port) entry.path entry.seen hops =
      (Function.update acc.1 entry.path (advance cables entry (acc.1 entry.path)),
        acc.2 ++ (following cables entry).toList) := by
  unfold step advance following look
  cases cables entry.port with
  | none => simp [stop, Path.extend, length]
  | some plug =>
    cases plug with
    | feed => simp [Path.extend]
    | outlet outlet =>
      cases inlet : outlet.inletPortId with
      | none => simp [inlet, followInlet, stop, Path.extend]
      | some inletId =>
        by_cases back : inletId ∈ entry.seen
        · simp [inlet, followInlet, stop, Path.extend, back]
        have queued : put acc.2 ⟨inletId, entry.path, inletId :: entry.seen⟩ = _ := put_eq new
        simp [inlet, followInlet, back, queued]

/-- **A level of the walk steps every path by itself.** -/
theorem foldl_step (distinct : (frontier.map Entry.path).Nodup)
    (length : ∀ entry ∈ frontier, entry.seen.length = hops + 1) (paths : Uuid → Path)
    (next : List Entry) (apart : ∀ other ∈ next, other.path ∉ frontier.map Entry.path) :
    let stepped := frontier.foldl (fun acc entry =>
      step acc (cables entry.port) entry.path entry.seen hops) (paths, next)
    (∀ entry ∈ frontier, stepped.1 entry.path = advance cables entry (paths entry.path)) ∧
    (∀ id, id ∉ frontier.map Entry.path → stepped.1 id = paths id) ∧
    stepped.2 = next ++ frontier.filterMap (following cables) := by
  induction frontier generalizing paths next with
  | nil => simp
  | cons first rest ih =>
    rw [map_cons, nodup_cons] at distinct
    simp only [map_cons, mem_cons, not_or] at apart
    have apart' : ∀ other ∈ next ++ (following cables first).toList,
        other.path ∉ rest.map Entry.path := by
      intro other mem
      rcases mem_append.1 mem with mem | mem
      · exact (apart other mem).2
      rw [(following_path (Option.mem_toList.1 mem)).1]
      exact distinct.1
    obtain ⟨own, others, queued⟩ := ih distinct.2
      (fun entry mem => length entry (mem_cons_of_mem _ mem))
      (Function.update paths first.path (advance cables first (paths first.path))) _ apart'
    simp only [foldl_cons, step_eq (paths, next) (length first mem_cons_self)
      fun other mem => (apart other mem).1]
    refine ⟨fun entry mem => ?_, fun id notIn => ?_, ?_⟩
    · rcases mem_cons.1 mem with rfl | mem
      · rw [others _ distinct.1, Function.update_self]
      have ne : entry.path ≠ first.path := fun same =>
        distinct.1 (same ▸ mem_map_of_mem mem)
      rw [own entry mem, Function.update_of_ne ne]
    · rw [map_cons, mem_cons, not_or] at notIn
      rw [others id notIn.2, Function.update_of_ne notIn.1]
    rw [queued, append_assoc, filterMap_cons]
    cases following cables first <;> rfl

theorem foldl_stop (distinct : (frontier.map Entry.path).Nodup) (paths : Uuid → Path) (id : Uuid) :
    frontier.foldl (fun paths entry => stop paths entry.path .tooDeep) paths id =
      if id ∈ frontier.map Entry.path then (paths id).extend ([], .stop .tooDeep)
      else paths id := by
  induction frontier generalizing paths with
  | nil => rfl
  | cons first _ ih =>
    rw [map_cons, nodup_cons] at distinct
    rw [foldl_cons, ih distinct.2, stop]
    by_cases same : id = first.path
    · subst same
      simp [distinct.1, Path.extend]
    · simp [same]

theorem sublist_following :
    ((frontier.filterMap (following cables)).map Entry.path).Sublist (frontier.map Entry.path) := by
  induction frontier with
  | nil => exact List.Sublist.slnil
  | cons first _ ih =>
    rw [filterMap_cons, map_cons]
    cases follows : following cables first with
    | none => exact ih.cons _
    | some =>
      rw [map_cons, (following_path follows).1]
      exact ih.cons_cons _

theorem extend_cons {path : Path} {outlet : Outlet} {way : List Outlet × Ending} :
    Path.extend { path with outlets := path.outlets ++ [outlet] } way =
      path.extend (outlet :: way.1, way.2) := by
  unfold Path.extend
  cases way.2 <;> simp

/-- **The batch takes every path as far as walking it alone does**, and touches no other. -/
theorem walk_eq (left : ℕ) (hops : ℕ) (together : hops + left = maxHops) (frontier : List Entry)
    (distinct : (frontier.map Entry.path).Nodup)
    (length : ∀ entry ∈ frontier, entry.seen.length = hops + 1) (paths : Uuid → Path) :
    (∀ entry ∈ frontier, walk cables paths frontier hops entry.path =
      (paths entry.path).extend (climb cables left entry.seen entry.port)) ∧
    ∀ id, id ∉ frontier.map Entry.path → walk cables paths frontier hops id = paths id := by
  -- By induction on the cables still allowed; each level is `foldl_step`.
  induction left generalizing hops frontier paths with
  | zero =>
    unfold walk
    by_cases none : frontier = []
    · simp [none]
    simp only [if_neg none, if_pos (show maxHops ≤ hops by omega), foldl_stop distinct]
    exact ⟨fun entry mem => if_pos (mem_map_of_mem mem), fun id notIn => if_neg notIn⟩
  | succ _ ih =>
    unfold walk
    by_cases none : frontier = []
    · simp [none]
    rw [if_neg none, if_neg (show ¬ maxHops ≤ hops by omega)]
    obtain ⟨own, others, queued⟩ := foldl_step distinct length paths [] nofun
    have nextLength : ∀ next ∈ frontier.filterMap (following cables),
        next.seen.length = hops + 1 + 1 := by
      intro next mem
      obtain ⟨entry, mem, follows⟩ := mem_filterMap.1 mem
      rw [(following_path follows).2, length entry mem]
    rw [nil_append] at queued
    rw [queued]
    obtain ⟨walked, still⟩ := ih (hops + 1) (by omega) _ (distinct.sublist sublist_following)
      nextLength _
    refine ⟨fun entry mem => ?_, fun id notIn => ?_⟩
    · rw [climb]
      cases shows : look cables entry.seen entry.port with
      | ends =>
        have ended : entry.path ∉ (frontier.filterMap (following cables)).map Entry.path := by
          rintro mem'
          obtain ⟨next, mem', same⟩ := mem_map.1 mem'
          obtain ⟨_, memOther, follows⟩ := mem_filterMap.1 mem'
          obtain rfl := inj_on_of_nodup_map distinct memOther mem
            ((following_path follows).1.symm.trans same)
          rw [following, shows] at follows
          cases follows
        rw [still _ ended, own entry mem, advance, shows]
      | on _ inletId =>
        have next : (⟨inletId, entry.path, inletId :: entry.seen⟩ : Entry) ∈
            frontier.filterMap (following cables) :=
          mem_filterMap.2 ⟨entry, mem, by rw [following, shows]⟩
        rw [walked _ next, own entry mem, advance, shows, extend_cons]
    · rw [still id fun mem => notIn (sublist_following.subset mem), others id notIn]

end Batch

/-- **The ports of a list are walked as if alone**, and the path of a port is the one way up from
it: the outlets it passes, and the feed it reaches or why it stops. -/
theorem forPorts_spec (cables : Cables) (ports : List Uuid) :
    forPorts cables ports = ports.flatMap (fun port => forPorts cables [port]) ∧
    ∀ port, ∃ outlets ending,
      (∀ outlets' ending', Chain cables [port] port outlets' ending' ↔
        outlets' = outlets ∧ ending' = ending) ∧
      forPorts cables [port] = [Path.extend { port } (outlets, ending)] := by
  have walked : ∀ (ports : List Uuid), ∀ port ∈ ports,
      walk cables (fun port => { port }) (ports.dedup.map fun port => ⟨port, port, [port]⟩) 0 port =
        Path.extend { port } (climb cables maxHops [port] port) := by
    intro ports port mem
    have distinct : ((ports.dedup.map fun port => (⟨port, port, [port]⟩ : Entry)).map
        Entry.path).Nodup := by
      rw [map_map]
      exact (map_id ports.dedup).symm ▸ ports.nodup_dedup
    refine (walk_eq maxHops 0 (Nat.zero_add _) _ distinct ?_ _).1 ⟨port, port, [port]⟩ ?_
    · intro _ mem
      obtain ⟨port, -, rfl⟩ := mem_map.1 mem
      rfl
    · exact mem_map.2 ⟨port, mem_dedup.2 mem, rfl⟩
  have alone : ∀ port, forPorts cables [port] =
      [Path.extend { port } (climb cables maxHops [port] port)] := fun port =>
    congrArg (fun path => [path]) (walked [port] port mem_cons_self)
  refine ⟨?_, fun port => ⟨(climb cables maxHops [port] port).1,
    (climb cables maxHops [port] port).2, fun _ _ => ?_, alone port⟩⟩
  · simp only [alone]
    rw [← map_eq_flatMap]
    exact map_congr_left (walked ports)
  rw [chain_iff (Nat.add_comm 1 maxHops) (cons_ne_nil _ _), Prod.ext_iff]
  exact ⟨fun same => ⟨same.1.symm, same.2.symm⟩, fun same => ⟨same.1.symm, same.2.symm⟩⟩

end Paths

end Renga.Power
