import PromptCanvas.Graph.Basic
import PromptCanvas.Graph.Search
import PromptCanvas.Keyed

/-!
# Links and cycles

The links of a graph say for every source which targets it feeds, in the order of the edges.  An
edge may be added only if it closes no cycle, that is, if its source is not already reached from its
target; `createsCycle` searches in breadth for it.  Whether edges that come all at once have a cycle
among them is found out by a search in depth, `hasCycle`.
-/

namespace PromptCanvas

/-- The targets of each source. -/
abbrev Links := List (String × List String)

namespace Links

/-- What a source feeds. -/
def targets (l : Links) (source : String) : List String := (Keyed.find? source l).getD []

def add (l : Links) (source target : String) : Links :=
  Keyed.set source (l.targets source ++ [target]) l

def ofEdges (edges : List Edge) : Links :=
  edges.foldl (fun l e => l.add e.source e.target) []

/-- Every target of every source. -/
def allTargets (l : Links) : List String := l.flatMap Prod.snd

theorem mem_allTargets_of_mem_targets {l : Links} {a b : String} (h : b ∈ l.targets a) :
    b ∈ l.allTargets := by
  rw [allTargets, List.mem_flatMap]
  rw [targets] at h
  cases hf : Keyed.find? a l with
  | none => rw [hf] at h; exact absurd h List.not_mem_nil
  | some bs =>
    rw [hf, Option.getD_some] at h
    exact ⟨(a, bs), Keyed.mem_of_find? hf, h⟩

/-! ## Closing a cycle -/

/-- A search in breadth that has come as far as the queue meets the goal.  Only what is looked at
is looked up; targets that were visited do not wait again. -/
def meets (l : Links) (goal : String) (visited : List String) : List String → Bool
  | [] => false
  | id :: queue =>
    if (l.targets id).contains goal then true
    else
      let found := Search.newcomers (fun t => t) visited (l.targets id)
      l.meets goal (visited ++ found) (queue ++ found)
termination_by queue => (Search.remaining l.allTargets visited).length + queue.length
decreasing_by
  have := Search.length_newcomers (fun t => t) visited
    fun t (ht : t ∈ l.targets id) => mem_allTargets_of_mem_targets ht
  simp only [List.map_id', List.length_append, List.length_cons] at *; omega

/-- An edge from source to target would close a cycle. -/
def createsCycle (l : Links) (source target : String) : Bool :=
  source == target || l.meets source [target] [target]

/-! ## Cycles among many edges -/

/-- The links with an entry for an id, whether it feeds anything or not. -/
def mention (l : Links) (id : String) : Links :=
  if (Keyed.keys l).contains id then l else Keyed.set id [] l

/-- The links of edges, with an entry for each node that they mention. -/
def spanning (edges : List Edge) : Links :=
  edges.foldl (fun l e => (l.add e.source e.target).mention e.target) []

/-- The visits of a search in depth that are under way, the innermost first: each node with the
targets that are still to be looked at. -/
abbrev Trail := List (String × List String)

/-- The nodes with an entry that a search in depth may still visit. -/
def unvisited (l : Links) (done : List String) (trail : Trail) : List String :=
  Search.remaining (Keyed.keys l) (Keyed.keys trail ++ done)

theorem unvisited_done (l : Links) (done : List String) (id : String) (trail : Trail) :
    l.unvisited (id :: done) trail = l.unvisited done ((id, []) :: trail) := by
  refine List.filter_congr fun e _ => decide_eq_decide.mpr ?_
  simp [Keyed.keys, or_left_comm]

/-- A node that is visited may not be visited again. -/
theorem length_unvisited_lt {l : Links} {done targets : List String} {target : String}
    {trail : Trail} (hentry : Keyed.find? target l = some targets)
    (hdone : done.contains target = false) (htrail : (Keyed.keys trail).contains target = false) :
    (l.unvisited done ((target, targets) :: trail)).length < (l.unvisited done trail).length := by
  have hopen : target ∈ l.unvisited done trail := by
    rw [unvisited, Search.remaining, List.mem_filter]
    refine ⟨List.mem_map_of_mem (Keyed.mem_of_find? hentry), ?_⟩
    simp_all
  have hfewer : l.unvisited done ((target, targets) :: trail) =
      Search.without target (l.unvisited done trail) := by
    rw [unvisited, unvisited, Search.remaining, Search.remaining, Search.without,
      List.filter_filter]
    refine List.filter_congr fun e _ => ?_
    rw [Bool.eq_iff_iff, Bool.and_eq_true, decide_eq_true_eq, decide_eq_true_eq, decide_eq_true_eq]
    simp [Keyed.keys]
  rw [hfewer]
  exact Search.length_without_lt hopen

/-- What a search in depth may still have to do: the visits to come, each of as many targets as
there are, and the targets on the trail. -/
def effort (l : Links) (done : List String) (trail : Trail) : Nat :=
  (l.unvisited done trail).length * (l.allTargets.length + 2) +
    ((trail.flatMap Prod.snd).length + trail.length)

theorem effort_done (l : Links) (done : List String) (id : String) (trail : Trail) :
    l.effort (id :: done) trail < l.effort done ((id, []) :: trail) := by
  simp only [effort, unvisited_done, List.flatMap_cons, List.length_append, List.length_cons,
    List.length_nil]
  omega

theorem effort_looked (l : Links) (done : List String) (id target : String) (rest : List String)
    (trail : Trail) :
    l.effort done ((id, rest) :: trail) < l.effort done ((id, target :: rest) :: trail) := by
  simp only [effort, unvisited, Keyed.keys, List.map_cons, List.flatMap_cons, List.length_append,
    List.length_cons]
  omega

theorem effort_visit {l : Links} {done rest targets : List String} {id target : String}
    {trail : Trail} (hentry : Keyed.find? target l = some targets)
    (htrail : (Keyed.keys ((id, rest) :: trail)).contains target = false)
    (hdone : done.contains target = false) :
    l.effort done ((target, targets) :: (id, rest) :: trail) <
      l.effort done ((id, target :: rest) :: trail) := by
  have hfewer := Nat.mul_le_mul_right (l.allTargets.length + 2)
    (length_unvisited_lt hentry hdone htrail)
  have hlength : targets.length ≤ l.allTargets.length := by
    rw [allTargets, List.flatMap_def]
    exact (List.sublist_flatten_of_mem
      (List.mem_map_of_mem (f := Prod.snd) (Keyed.mem_of_find? hentry))).length_le
  rw [Nat.succ_mul] at hfewer
  simp only [effort, unvisited, Keyed.keys, List.map_cons, List.flatMap_cons, List.length_append,
    List.length_cons] at *
  omega

/-- Goes on with a search in depth until all visits have ended, and gives the nodes that are done
then.  If a visit comes to a target on the trail, there is a cycle, and nothing is given. -/
def descend (l : Links) (done : List String) : Trail → Option (List String)
  | [] => some done
  | (id, []) :: trail => l.descend (id :: done) trail
  | (id, target :: rest) :: trail =>
    if (Keyed.keys ((id, rest) :: trail)).contains target then none
    else if done.contains target then l.descend done ((id, rest) :: trail)
    else
      match _hentry : Keyed.find? target l with
      | none => l.descend done ((id, rest) :: trail)
      | some targets => l.descend done ((target, targets) :: (id, rest) :: trail)
termination_by trail => l.effort done trail
decreasing_by
  · exact l.effort_done done id trail
  · exact l.effort_looked done id target rest trail
  · exact l.effort_looked done id target rest trail
  · rename_i htrail hdone
    exact effort_visit _hentry (Bool.eq_false_iff.mpr htrail) (Bool.eq_false_iff.mpr hdone)

/-- A search in depth from one node after the other, except from those that are done, comes to a
cycle. -/
def runsInCircles (l : Links) (done : List String) : List String → Bool
  | [] => false
  | id :: rest =>
    if done.contains id then l.runsInCircles done rest
    else
      match l.descend done [(id, l.targets id)] with
      | none => true
      | some done => l.runsInCircles done rest

end Links

/-- Some edges form a directed cycle. -/
def hasCycle (edges : List Edge) : Bool :=
  (Links.spanning edges).runsInCircles [] (Keyed.keys (Links.spanning edges))

end PromptCanvas
