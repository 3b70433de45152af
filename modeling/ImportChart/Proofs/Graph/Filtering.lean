import ImportChart.Proofs.Graph.Diagram
import ImportChart.Proofs.Graph.Successors
import Mathlib.Data.Finset.Card

/-!
# Which nodes keep their names when origins are hidden

A node is named after its place, and places are given in the order in which names are first drawn.
Every file with dependencies is drawn, whatever is shown (`GraphInput.walk` meets it under its own
path). What its dependencies lead to is drawn if their origin is shown, and takes a place then. So a
name that is hidden moves each node that was first drawn behind it, unless as many other names ahead
of that node are drawn in its stead.

`Graph.ids_ofInput_filtered` says for two graphs of one input that differ in what they show, which
nodes have one name in both. `Graph.ids_ofInput_filtered_hiddenPackage` is a file whose package
stands ahead of its import of a second file: the second file has another name when packages are
hidden.
-/

namespace ImportChart

/-- The keys of the nodes of a graph, in order. -/
def Graph.keys (graph : Graph) : List String :=
  graph.nodes.map GraphNode.key

/-- The names met in the files that have dependencies, shown or not: each file under its own path,
and behind it what its dependencies lead to, with their origins. Of the options only the limit of
depth matters. -/
def GraphInput.walk (options : RenderOptions) (input : GraphInput) :
    List (String × Option Origin) :=
  ((options.admitted input.placedFiles).filter fun file => !file.2.isEmpty).flatMap fun file =>
    (file.1, none) :: file.2.filterMap fun dependency =>
      dependency.target?.map fun target => (target, some dependency.origin)

/-- Whether a name is drawn where it is met: a file always, and what a dependency leads to if its
origin is shown. -/
def RenderOptions.draws (options : RenderOptions) (met : String × Option Origin) : Bool :=
  met.2.all options.shows

/-- The names drawn in the files of an input, in the order in which they are met. -/
def GraphInput.drawn (options : RenderOptions) (input : GraphInput) : List String :=
  ((input.walk options).filter options.draws).map Prod.fst

/-- The names drawn before a key is. -/
def GraphInput.drawnAhead (options : RenderOptions) (input : GraphInput)
    (key : String) : Finset String :=
  ((input.drawn options).takeWhile (· ≠ key)).toFinset

/-- The nodes ahead of a key that another graph lacks. -/
def Graph.lackedAhead (graph other : Graph) (key : String) : List String :=
  (graph.keys.takeWhile (· ≠ key)).filter (· ∉ other.keys)

/-! ## Places in lists -/

section Places

variable {xs ys : List String} {key : String}

theorem takeWhile_ne_append_cons {ahead behind : List String} (h : key ∉ ahead) :
    (ahead ++ key :: behind).takeWhile (· ≠ key) = ahead := by
  have hne : ∀ other ∈ ahead, decide (other ≠ key) = true := fun other hother =>
    decide_eq_true (ne_of_mem_of_not_mem hother h)
  rw [List.takeWhile_append_of_pos hne, List.takeWhile_cons_of_neg (by simp), List.append_nil]

/-- Among first occurrences the place of an element is the number of elements that occur before
it. -/
theorem idxOf_firsts (h : key ∈ xs) :
    (firsts xs).idxOf key = (xs.takeWhile (· ≠ key)).toFinset.card := by
  obtain ⟨ahead, behind, rfl, hnew⟩ := List.eq_append_cons_of_mem h
  have hfirsts : firsts (ahead ++ [key]) = firsts ahead ++ [key] :=
    firstsBy_concat_of_new fun other hother => ne_of_mem_of_not_mem hother hnew
  have hplace :
      (firsts (ahead ++ key :: behind)).idxOf key = (firsts (ahead ++ [key])).idxOf key := by
    rw [List.append_cons, firsts, firstsBy_append]
    exact List.idxOf_append_of_mem
      (mem_firsts.mpr (List.mem_append_right _ (List.mem_singleton_self key)))
  have hahead : (firsts ahead).toFinset = ahead.toFinset := Finset.ext fun name => by
    rw [List.mem_toFinset, List.mem_toFinset, mem_firsts]
  rw [hplace, hfirsts, List.idxOf_append, if_neg (mem_firsts.not.mpr hnew), List.idxOf_cons_self,
    Nat.zero_add, takeWhile_ne_append_cons hnew, ← hahead,
    List.toFinset_card_of_nodup (nodup_firsts ahead)]

/-- The place of an element among those kept, and the elements left out ahead of it, make its
place. -/
theorem idxOf_filter_add {p : String → Bool} (h : key ∈ xs) (hp : p key = true) :
    (xs.filter p).idxOf key +
      ((xs.takeWhile (· ≠ key)).filter fun other => !p other).length = xs.idxOf key := by
  obtain ⟨ahead, behind, rfl, hnew⟩ := List.eq_append_cons_of_mem h
  have hkept : key ∉ ahead.filter p := fun hmem => hnew (List.mem_filter.mp hmem).1
  have hparts :
      (ahead.filter p).length + (ahead.filter fun other => !p other).length = ahead.length := by
    rw [← List.length_append]
    exact (List.filter_append_perm p ahead).length_eq
  rw [takeWhile_ne_append_cons hnew, List.filter_append, List.filter_cons_of_pos hp,
    List.idxOf_append, if_neg hkept, List.idxOf_append, if_neg hnew, List.idxOf_cons_self,
    List.idxOf_cons_self, Nat.zero_add, Nat.zero_add, hparts]

/-- The elements of a list without repetitions have the same places in a list that has them all,
exactly if the first list is the beginning of the second. -/
theorem idxOf_eq_iff_prefix (hys : ys.Nodup) (hsub : ys ⊆ xs) :
    (∀ key ∈ ys, xs.idxOf key = ys.idxOf key) ↔ ys <+: xs := by
  constructor
  · intro h
    refine List.prefix_iff_getElem?.mpr fun place hlt => ?_
    have hmem : ys[place] ∈ ys := List.getElem_mem hlt
    have hplace : xs.idxOf ys[place] = place := (h _ hmem).trans (hys.idxOf_getElem place hlt)
    have hfound : xs[xs.idxOf ys[place]]? = some ys[place] := List.getElem?_idxOf (hsub hmem)
    rwa [hplace] at hfound
  · rintro ⟨more, rfl⟩ key hkey
    exact List.idxOf_append_of_mem hkey

end Places

/-! ## The keys of a graph -/

namespace Graph

variable {input : GraphInput} {options filtered : RenderOptions} {node : GraphNode} {key : String}

/-- What is shown of a file is what is drawn of the names met in it. -/
theorem map_fst_filter_draws (path : String) (dependencies : List Dependency) :
    (((path, none) :: dependencies.filterMap fun dependency =>
        dependency.target?.map fun target =>
          (target, some dependency.origin)).filter options.draws).map Prod.fst =
      path :: (options.shown dependencies).filterMap Dependency.target? := by
  have hdependencies : ((dependencies.filterMap fun dependency =>
        dependency.target?.map fun target =>
          (target, some dependency.origin)).filter options.draws).map Prod.fst =
      (options.shown dependencies).filterMap Dependency.target? := by
    rw [RenderOptions.shown, List.filterMap_filter, List.filter_filterMap, List.map_filterMap]
    refine List.filterMap_congr fun dependency _ => ?_
    cases dependency.target? with
    | none => exact (ite_self none).symm
    | some target =>
      rw [Option.map_some, Option.filter_some]
      exact apply_ite (Option.map Prod.fst) _ _ _
  rw [List.filter_cons_of_pos rfl, List.map_cons, hdependencies]

/-- The keys of a graph are the names drawn, each once. -/
theorem keys_ofInput (input : GraphInput) (options : RenderOptions) :
    (ofInput input options).keys = firsts (input.drawn options) := by
  have hsources :
      (input.sources options).flatMap (fun file => file.1 :: file.2.filterMap Dependency.target?) =
      input.drawn options := by
    rw [GraphInput.sources, GraphInput.drawn, GraphInput.walk, List.flatMap_map,
      List.filter_flatMap, List.map_flatMap]
    exact List.flatMap_congr fun file _ => (map_fst_filter_draws file.1 file.2).symm
  rw [keys, (ofInput_traces input options).eq_ofTrace, map_key_nodes_ofTrace, Encounter.keys,
    Encounter.map_key_flatMap_ofFile, hsources]

theorem nodup_keys_ofInput (input : GraphInput) (options : RenderOptions) :
    (ofInput input options).keys.Nodup := by
  rw [keys_ofInput]
  exact nodup_firsts _

/-- A node is named after the place of its key. -/
theorem id_eq_of_mem (h : node ∈ (ofInput input options).nodes) :
    node.id = nodeName ((ofInput input options).keys.idxOf node.key) := by
  obtain ⟨place, hnode⟩ := List.getElem?_of_mem h
  have hkey : (ofInput input options).keys[place]? = some node.key := by
    rw [keys, List.getElem?_map, hnode, Option.map_some]
  obtain ⟨hlt, hget⟩ := List.getElem?_eq_some_iff.mp hkey
  rw [(ofInput_traces input options).id_eq hnode, ← hget,
    (nodup_keys_ofInput input options).idxOf_getElem place hlt]

/-- The number of a node is the number of names drawn before its key. -/
theorem id_eq_card (h : node ∈ (ofInput input options).nodes) :
    node.id = nodeName (input.drawnAhead options node.key).card := by
  have hkey : node.key ∈ (ofInput input options).keys := List.mem_map_of_mem h
  rw [keys_ofInput, mem_firsts] at hkey
  rw [id_eq_of_mem h, keys_ofInput, GraphInput.drawnAhead, idxOf_firsts hkey]

theorem mem_keys_ofInput {met : String × Option Origin} (hmet : met ∈ input.walk options)
    (h : options.draws met = true) : met.1 ∈ (ofInput input options).keys := by
  rw [keys_ofInput, mem_firsts]
  exact List.mem_map_of_mem (List.mem_filter.mpr ⟨hmet, h⟩)

/-- The keys that are kept are drawn where the names that are kept are. -/
theorem filter_keys_ofInput (p : String → Bool) :
    (ofInput input options).keys.filter p =
      firsts
        (((input.walk options).filter fun met => p met.1 && options.draws met).map Prod.fst) := by
  rw [keys_ofInput, filter_firsts, GraphInput.drawn, List.filter_map, List.filter_filter]
  rfl

/-- What two graphs of one input share stands in the same order in both, if each name that they
share is drawn by both wherever it is drawn by one. -/
theorem filter_mem_keys_ofInput (hwalk : input.walk filtered = input.walk options)
    (h : ∀ met ∈ input.walk options, met.1 ∈ (ofInput input options).keys →
      met.1 ∈ (ofInput input filtered).keys → options.draws met = filtered.draws met) :
    (ofInput input options).keys.filter (· ∈ (ofInput input filtered).keys) =
      (ofInput input filtered).keys.filter (· ∈ (ofInput input options).keys) := by
  rw [filter_keys_ofInput, filter_keys_ofInput, hwalk]
  refine congrArg (fun walk => firsts (List.map Prod.fst walk))
    (List.filter_congr fun met hmet => ?_)
  rw [Bool.eq_iff_iff, Bool.and_eq_true_iff, Bool.and_eq_true_iff, decide_eq_true_iff,
    decide_eq_true_iff]
  constructor
  · rintro ⟨hother, hdraws⟩
    have hgraph := mem_keys_ofInput hmet hdraws
    exact ⟨hgraph, h met hmet hgraph hother ▸ hdraws⟩
  · rintro ⟨hgraph, hdraws⟩
    have hother := mem_keys_ofInput (hwalk ▸ hmet) hdraws
    exact ⟨hother, (h met hmet hgraph hother).symm ▸ hdraws⟩

/-- The place of a key that another graph has too: that among the keys that both have, behind what
the other lacks. -/
theorem idxOf_filter_keys_add (graph other : Graph) (h : key ∈ graph.keys)
    (hother : key ∈ other.keys) :
    (graph.keys.filter (· ∈ other.keys)).idxOf key + (graph.lackedAhead other key).length =
      graph.keys.idxOf key := by
  rw [← idxOf_filter_add (p := fun other' => decide (other' ∈ other.keys)) h
    (decide_eq_true hother), lackedAhead]
  simp only [decide_not]

/-- **Which nodes keep their names when origins are hidden or shown.** Let two graphs be of one
input, with options that differ in what is shown. A file with dependencies has a node in both. A key
has nodes of one name in both exactly if as many names are drawn ahead of it in one as in the other.
If one graph has all keys of the other, then all nodes of the other keep their names exactly if they
are the first nodes of the one, in order. And if each name that both graphs have is drawn in both
wherever it is drawn in one, a key has nodes of one name exactly if each graph has as many nodes
ahead of it that the other lacks. -/
theorem ids_ofInput_filtered (input : GraphInput) (options : RenderOptions)
    (external builtin : Bool) :
    let filtered : RenderOptions :=
      { options with showExternal := external, showBuiltin := builtin }
    let graph := ofInput input options
    let other := ofInput input filtered
    (∀ path, (path, none) ∈ input.walk options → path ∈ graph.keys ∧ path ∈ other.keys) ∧
      (∀ node ∈ graph.nodes, ∀ node' ∈ other.nodes, node.key = node'.key →
        (node.id = node'.id ↔
          (input.drawnAhead options node.key).card = (input.drawnAhead filtered node.key).card)) ∧
      (other.keys ⊆ graph.keys →
        ((∀ node ∈ graph.nodes, ∀ node' ∈ other.nodes, node.key = node'.key → node.id = node'.id) ↔
          other.keys <+: graph.keys)) ∧
      ((∀ met ∈ input.walk options, met.1 ∈ graph.keys → met.1 ∈ other.keys →
          options.draws met = filtered.draws met) →
        ∀ node ∈ graph.nodes, ∀ node' ∈ other.nodes, node.key = node'.key →
          (node.id = node'.id ↔
            (graph.lackedAhead other node.key).length =
              (other.lackedAhead graph node.key).length)) := by
  intro filtered graph other
  have hwalk : input.walk filtered = input.walk options := rfl
  have hplaces : ∀ node ∈ graph.nodes, ∀ node' ∈ other.nodes, node.key = node'.key →
      (node.id = node'.id ↔ graph.keys.idxOf node.key = other.keys.idxOf node.key) := by
    intro node hnode node' hnode' hkey
    rw [id_eq_of_mem hnode, id_eq_of_mem hnode', ← hkey]
    exact nodeName_injective.eq_iff
  refine ⟨fun path hpath =>
    ⟨mem_keys_ofInput hpath rfl, @mem_keys_ofInput input filtered _ hpath rfl⟩, ?_,
    fun hsub => ?_, fun h => ?_⟩
  · intro node hnode node' hnode' hkey
    rw [id_eq_card hnode, id_eq_card hnode', ← hkey]
    exact nodeName_injective.eq_iff
  · rw [← idxOf_eq_iff_prefix (nodup_keys_ofInput input filtered) hsub]
    constructor
    · intro hsame key hkey
      obtain ⟨node', hnode', rfl⟩ := List.mem_map.mp hkey
      obtain ⟨node, hnode, heq⟩ := List.mem_map.mp (hsub hkey)
      have hplace := (hplaces node hnode node' hnode' heq).mp (hsame node hnode node' hnode' heq)
      rwa [heq] at hplace
    · intro hsame node hnode node' hnode' hkey
      refine (hplaces node hnode node' hnode' hkey).mpr (hsame _ ?_)
      rw [hkey]
      exact List.mem_map_of_mem hnode'
  · intro node hnode node' hnode' hkey
    have hgraph : node.key ∈ graph.keys := List.mem_map_of_mem hnode
    have hother : node.key ∈ other.keys := hkey ▸ List.mem_map_of_mem hnode'
    rw [hplaces node hnode node' hnode' hkey, ← idxOf_filter_keys_add graph other hgraph hother,
      ← idxOf_filter_keys_add other graph hother hgraph, filter_mem_keys_ofInput hwalk h]
    exact Nat.add_left_cancel_iff

/-- A file that imports a package and then a second file. -/
def hiddenPackage : GraphInput :=
  .tree [.file "a.js" "a.js" (some [
      { token := "react", span := ⟨8, 13⟩, line := 1, origin := .external, targetPath := none },
      { token := "./b", span := ⟨24, 27⟩, line := 1, origin := .internal,
        targetPath := some "b.js" }]),
    .file "b.js" "b.js" (some [])]

/-- The second file is in both graphs, under two names. -/
theorem ids_ofInput_filtered_hiddenPackage :
    let options : RenderOptions := {}
    let filtered : RenderOptions := { options with showExternal := false }
    (ofInput hiddenPackage options).nodes.map (fun node => (node.key, node.id)) =
        [("a.js", "node0"), ("react", "node1"), ("b.js", "node2")] ∧
      (ofInput hiddenPackage filtered).nodes.map (fun node => (node.key, node.id)) =
        [("a.js", "node0"), ("b.js", "node1")] ∧
      ¬ ∀ node ∈ (ofInput hiddenPackage options).nodes,
      ∀ node' ∈ (ofInput hiddenPackage filtered).nodes,
        node.key = node'.key → node.id = node'.id := by
  decide

end Graph

end ImportChart
