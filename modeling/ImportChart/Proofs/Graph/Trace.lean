import ImportChart.Graph
import ImportChart.Ordered.Distinct
import Mathlib.Data.List.Basic

/-!
# The trace of a graph

A graph is built by operations that look up, add and change nodes. This module keeps, beside the
graph, the trace of what was met while it was built: the keys in the order of their meetings, each
with the label and the role that it had there, and the links between keys. `Graph.ofTrace` makes a
graph of a trace without any operation: the nodes are the first meetings of the keys, and the edges
the first of the links.

`Graph.Traces` relates a graph to its trace. Each operation on graphs extends the trace at its end
(`Traces.insertNode`, `Traces.insertEdge`, `Traces.addDependency`), and so does the addition of a
whole list of files (`Traces.foldl_addSource`).
-/

namespace ImportChart

/-- A meeting of a key while a graph is built. -/
structure Encounter where
  key : String
  label : String
  role : Role
  deriving DecidableEq, Repr

namespace Encounter

/-- The keys met, each once, in the order of their first meetings. -/
def keys (met : List Encounter) : List String :=
  firsts (met.map key)

/-- The place of a key among the keys met. -/
def place (met : List Encounter) (key : String) : Nat :=
  (keys met).idxOf key

/-- Whether a key is met as a source, be it first or later. -/
def isSource (met : List Encounter) (key : String) : Bool :=
  met.any fun encounter => decide (encounter.key = key ∧ encounter.role = .source)

/-- The node of a key, from its place and its first meeting. -/
def toNode (met : List Encounter) (place : Nat) (first : Encounter) : GraphNode where
  id := nodeName place
  key := first.key
  label := first.label
  role := if isSource met first.key then .source else first.role

variable {met more : List Encounter} {encounter : Encounter} {key : String}

theorem mem_keys : key ∈ keys met ↔ key ∈ met.map Encounter.key :=
  mem_firsts

theorem nodup_keys (met : List Encounter) : (keys met).Nodup :=
  nodup_firsts _

/-- The keys are those of the first meetings. -/
theorem map_key_firstsBy (met : List Encounter) :
    (firstsBy Encounter.key met).map Encounter.key = keys met :=
  map_firstsBy met

/-- A key keeps its place when more is met. -/
theorem place_append (h : key ∈ met.map Encounter.key) :
    place (met ++ more) key = place met key := by
  rw [place, place, keys, List.map_append, firsts, firstsBy_append]
  exact List.idxOf_append_of_mem (mem_keys.mpr h)

theorem place_lt (h : key ∈ met.map Encounter.key) : place met key < (keys met).length :=
  List.idxOf_lt_length_of_mem (mem_keys.mpr h)

theorem place_inj {other : String} (h : key ∈ met.map Encounter.key) :
    place met key = place met other ↔ key = other :=
  List.idxOf_inj (mem_keys.mpr h)

theorem getElem?_place (h : key ∈ met.map Encounter.key) : (keys met)[place met key]? = some key :=
  List.getElem?_idxOf (mem_keys.mpr h)

theorem firstsBy_concat_of_mem (h : encounter.key ∈ met.map Encounter.key) :
    firstsBy Encounter.key (met ++ [encounter]) = firstsBy Encounter.key met := by
  obtain ⟨other, hother, hkey⟩ := List.mem_map.mp h
  exact firstsBy_concat_of_old hother hkey

/-- A key met for the first time has its place behind all others. -/
theorem place_concat_of_not_mem (h : encounter.key ∉ met.map Encounter.key) :
    place (met ++ [encounter]) encounter.key = (keys met).length := by
  have hother : ∀ key ∈ met.map Encounter.key, id key ≠ id encounter.key := by
    rintro key hkey rfl
    exact h hkey
  have hkeys : keys (met ++ [encounter]) = keys met ++ [encounter.key] := by
    rw [keys, List.map_append]
    exact firstsBy_concat_of_new hother
  rw [place, hkeys, List.idxOf_append, if_neg (mem_keys.not.mpr h), List.idxOf_cons_self,
    Nat.zero_add]

/-- The first meeting at a place is of a key exactly if the place is the key's. -/
theorem place_eq_iff {place' : Nat} {first : Encounter}
    (h : (firstsBy Encounter.key met)[place']? = some first) (hkey : key ∈ met.map Encounter.key) :
    place met key = place' ↔ first.key = key := by
  have hplace : (keys met)[place']? = some first.key := by
    rw [← map_key_firstsBy, List.getElem?_map, h, Option.map_some]
  constructor
  · rintro rfl
    rw [getElem?_place hkey] at hplace
    exact (Option.some.inj hplace).symm
  · rintro rfl
    obtain ⟨hlt, hget⟩ := List.getElem?_eq_some_iff.mp hplace
    rw [place, ← hget]
    exact (nodup_keys met).idxOf_getElem place' hlt

/-- One more meeting makes a source of its key if it is as a source. -/
theorem isSource_concat : isSource (met ++ [encounter]) key =
    (isSource met key || decide (encounter.key = key ∧ encounter.role = .source)) := by
  simp [isSource, List.any_append]

theorem isSource_of_not_mem (h : key ∉ met.map Encounter.key) : isSource met key = false := by
  refine List.any_eq_false.mpr fun other hother htrue => h ?_
  exact List.mem_map.mpr ⟨other, hother, (of_decide_eq_true htrue).1⟩

/-- The nodes of other keys do not see a meeting, nor does any node if it is not as a source. -/
theorem toNode_concat {place : Nat} {first : Encounter}
    (h : encounter.key ≠ first.key ∨ encounter.role ≠ .source) :
    toNode (met ++ [encounter]) place first = toNode met place first := by
  have hfalse : decide (encounter.key = first.key ∧ encounter.role = .source) = false :=
    decide_eq_false fun hboth => h.elim (· hboth.1) (· hboth.2)
  rw [toNode, toNode, isSource_concat, hfalse, Bool.or_false]

/-- The node of a key met as a source is a source. -/
theorem toNode_concat_source {place : Nat} {first : Encounter} (hkey : encounter.key = first.key)
    (hrole : encounter.role = .source) :
    toNode (met ++ [encounter]) place first = { toNode met place first with role := .source } := by
  have htrue : decide (encounter.key = first.key ∧ encounter.role = .source) = true :=
    decide_eq_true ⟨hkey, hrole⟩
  rw [toNode, toNode, isSource_concat, htrue, Bool.or_true]
  rfl

/-- The node of a key that was not met before is as it is met. -/
theorem toNode_concat_new {place : Nat} (h : encounter.key ∉ met.map Encounter.key) :
    toNode (met ++ [encounter]) place encounter =
      { id := nodeName place, key := encounter.key, label := encounter.label,
        role := encounter.role } := by
  rw [toNode, isSource_concat, isSource_of_not_mem h, Bool.false_or]
  by_cases hrole : encounter.role = .source
  · simp [hrole]
  · simp [hrole]

end Encounter

open Encounter

/-- The graph of a trace: a node for each key met, named after its place, and each link once. -/
def Graph.ofTrace (met : List Encounter) (links : List (String × String)) : Graph where
  nodes := (firstsBy Encounter.key met).mapIdx (toNode met)
  edges := (firsts links).map fun link => (place met link.1, place met link.2)

/-- A graph is that of a trace, whose links are between keys that are met. -/
structure Graph.Traces (graph : Graph) (met : List Encounter)
    (links : List (String × String)) : Prop where
  eq_ofTrace : graph = .ofTrace met links
  closed : ∀ link ∈ links, link.1 ∈ met.map Encounter.key ∧ link.2 ∈ met.map Encounter.key

namespace Graph

variable {graph : Graph} {met : List Encounter} {links : List (String × String)}

/-! ## The graph of a trace -/

@[simp] theorem length_nodes_ofTrace : (ofTrace met links).nodes.length = (keys met).length := by
  rw [ofTrace, List.length_mapIdx, ← map_key_firstsBy, List.length_map]

theorem map_key_nodes_ofTrace : (ofTrace met links).nodes.map GraphNode.key = keys met := by
  rw [← map_key_firstsBy]
  refine List.ext_getElem? fun place => ?_
  simp only [ofTrace, List.getElem?_map, List.getElem?_mapIdx, Option.map_map]
  rfl

/-- A key is found at its place if it is met, and nowhere else. -/
theorem place?_ofTrace (key : String) : (ofTrace met links).place? key =
    if key ∈ met.map Encounter.key then some (place met key) else none := by
  have hkeys : (ofTrace met links).place? key = (keys met).findIdx? (· == key) := by
    rw [← @map_key_nodes_ofTrace met links, List.findIdx?_map]
    rfl
  rw [hkeys]
  split
  · next hmem =>
    exact List.findIdx?_eq_some_iff_findIdx_eq.mpr ⟨place_lt hmem, rfl⟩
  · next hmem =>
    refine List.findIdx?_eq_none_iff.mpr fun other hother => beq_false_of_ne fun heq => hmem ?_
    exact mem_keys.mp (heq ▸ hother)

/-- The node at a place is that of the first meeting there. -/
theorem getElem?_nodes_ofTrace (place : Nat) :
    (ofTrace met links).nodes[place]? =
      (firstsBy Encounter.key met)[place]?.map (toNode met place) :=
  List.getElem?_mapIdx

/-- More meetings do not move the edges. -/
theorem edges_ofTrace_append {more : List Encounter}
    (closed : ∀ link ∈ links, link.1 ∈ met.map Encounter.key ∧ link.2 ∈ met.map Encounter.key) :
    (ofTrace (met ++ more) links).edges = (ofTrace met links).edges := by
  refine List.map_congr_left fun link hlink => ?_
  obtain ⟨hfrom, hto⟩ := closed link (mem_firsts.mp hlink)
  rw [place_append hfrom, place_append hto]

/-- A key met again as a source makes its node a source. -/
theorem nodes_ofTrace_concat_source {encounter : Encounter}
    (hmem : encounter.key ∈ met.map Encounter.key) (hrole : encounter.role = .source) :
    (ofTrace (met ++ [encounter]) links).nodes =
      (ofTrace met links).nodes.modify (place met encounter.key) ({ · with role := .source }) := by
  refine List.ext_getElem? fun place' => ?_
  rw [List.getElem?_modify, getElem?_nodes_ofTrace, getElem?_nodes_ofTrace,
    firstsBy_concat_of_mem hmem]
  cases hfirst : (firstsBy Encounter.key met)[place']? with
  | none => rfl
  | some first =>
    have hiff := place_eq_iff hfirst hmem
    show some (toNode (met ++ [encounter]) place' first) =
      some (if place met encounter.key = place' then _ else toNode met place' first)
    by_cases hkey : first.key = encounter.key
    · rw [toNode_concat_source hkey.symm hrole, if_pos (hiff.mpr hkey)]
    · rw [toNode_concat (.inl (Ne.symm hkey)), if_neg (hiff.not.mpr hkey)]

/-- A key met again with another role leaves the nodes as they are. -/
theorem nodes_ofTrace_concat_old {encounter : Encounter}
    (hmem : encounter.key ∈ met.map Encounter.key) (hrole : encounter.role ≠ .source) :
    (ofTrace (met ++ [encounter]) links).nodes = (ofTrace met links).nodes := by
  rw [ofTrace, ofTrace, firstsBy_concat_of_mem hmem]
  exact List.mapIdx_eq_mapIdx_iff.mpr fun _ _ => toNode_concat (.inr hrole)

/-- A key met for the first time has a node behind all others. -/
theorem nodes_ofTrace_concat_new {encounter : Encounter}
    (hnew : encounter.key ∉ met.map Encounter.key) :
    (ofTrace (met ++ [encounter]) links).nodes =
      (ofTrace met links).nodes ++
        [{ id := nodeName (ofTrace met links).nodes.length, key := encounter.key,
           label := encounter.label, role := encounter.role }] := by
  have hother : ∀ other ∈ met, other.key ≠ encounter.key := fun other hmem heq =>
    hnew (List.mem_map.mpr ⟨other, hmem, heq⟩)
  rw [length_nodes_ofTrace, ofTrace, ofTrace, firstsBy_concat_of_new hother, List.mapIdx_concat,
    toNode_concat_new hnew, ← map_key_firstsBy, List.length_map]
  refine congrArg (· ++ _) (List.mapIdx_eq_mapIdx_iff.mpr fun place hlt => toNode_concat (.inl ?_))
  exact (hother _ ((firstsBy_sublist met).mem (List.getElem_mem hlt))).symm

/-- Two keys have an edge exactly if they have a link. -/
theorem mem_edges_ofTrace
    (closed : ∀ link ∈ links, link.1 ∈ met.map Encounter.key ∧ link.2 ∈ met.map Encounter.key)
    {source target : String} :
    (place met source, place met target) ∈ (ofTrace met links).edges ↔
      (source, target) ∈ links := by
  constructor
  · intro hmem
    obtain ⟨link, hlink, heq⟩ := List.mem_map.mp hmem
    have hlink := mem_firsts.mp hlink
    obtain ⟨hfrom, hto⟩ := closed link hlink
    have hsource : link.1 = source := (place_inj hfrom).mp (congrArg Prod.fst heq)
    have htarget : link.2 = target := (place_inj hto).mp (congrArg Prod.snd heq)
    rw [← hsource, ← htarget]
    exact hlink
  · intro hlink
    exact List.mem_map.mpr ⟨(source, target), mem_firsts.mpr hlink, rfl⟩

/-! ## The operations extend the trace -/

namespace Traces

theorem empty : Traces .empty [] [] :=
  ⟨rfl, fun _ hlink => absurd hlink List.not_mem_nil⟩

/-- What is met stays met. -/
theorem closed_append (h : Traces graph met links) (more : List Encounter) :
    ∀ link ∈ links, link.1 ∈ (met ++ more).map Encounter.key ∧
    link.2 ∈ (met ++ more).map Encounter.key := by
  intro link hlink
  rw [List.map_append]
  obtain ⟨hfrom, hto⟩ := h.closed link hlink
  exact ⟨List.mem_append_left _ hfrom, List.mem_append_left _ hto⟩

/-- A node inserted is one more meeting, and its place is that of its key. -/
theorem insertNode (h : Traces graph met links) (encounter : Encounter) :
    Traces (graph.insertNode encounter.key encounter.label encounter.role).1
      (met ++ [encounter]) links ∧
      (graph.insertNode encounter.key encounter.label encounter.role).2 =
        place (met ++ [encounter]) encounter.key := by
  have hedges : (ofTrace (met ++ [encounter]) links).edges = (ofTrace met links).edges :=
    edges_ofTrace_append h.closed
  have hclosed := h.closed_append [encounter]
  obtain rfl := h.eq_ofTrace
  by_cases hmem : encounter.key ∈ met.map Encounter.key
  · have hplace : place (met ++ [encounter]) encounter.key =
        place met encounter.key := place_append hmem
    rw [Graph.insertNode, place?_ofTrace, if_pos hmem, hplace]
    by_cases hrole : encounter.role = .source
    · have hnodes := @nodes_ofTrace_concat_source met links encounter hmem hrole
      simp only [if_pos hrole]
      exact ⟨⟨congrArg₂ Graph.mk hnodes.symm hedges.symm, hclosed⟩, trivial⟩
    · have hnodes := @nodes_ofTrace_concat_old met links encounter hmem hrole
      simp only [if_neg hrole]
      exact ⟨⟨congrArg₂ Graph.mk hnodes.symm hedges.symm, hclosed⟩, trivial⟩
  · have hnodes := @nodes_ofTrace_concat_new met links encounter hmem
    rw [Graph.insertNode, place?_ofTrace, if_neg hmem, place_concat_of_not_mem hmem]
    exact ⟨⟨congrArg₂ Graph.mk hnodes.symm hedges.symm, hclosed⟩, length_nodes_ofTrace⟩

/-- An edge inserted between keys that are met is one more link. -/
theorem insertEdge (h : Traces graph met links) {source target : String}
    (hsource : source ∈ met.map Encounter.key) (htarget : target ∈ met.map Encounter.key) :
    Traces (graph.insertEdge (place met source, place met target)) met
      (links ++ [(source, target)]) := by
  refine ⟨?_, fun link hlink => ?_⟩
  · rw [h.eq_ofTrace, Graph.insertEdge]
    by_cases hlink : (source, target) ∈ links
    · rw [if_pos ((mem_edges_ofTrace h.closed).mpr hlink), ofTrace, ofTrace, firsts, firsts,
        firstsBy_concat_of_old hlink rfl]
    · have hnew : ∀ other ∈ links, id other ≠ id (source, target) := by
        rintro other hother rfl
        exact hlink hother
      rw [if_neg ((mem_edges_ofTrace h.closed).not.mpr hlink), ofTrace, ofTrace, firsts, firsts,
        firstsBy_concat_of_new hnew, List.map_append]
      rfl
  · rcases List.mem_append.mp hlink with hlink | hlink
    · exact h.closed link hlink
    · rw [List.mem_singleton.mp hlink]
      exact ⟨hsource, htarget⟩

end Traces

end Graph

/-- What is met by adding a dependency: what it leads to, if it leads anywhere. -/
def Dependency.encounter? (dependency : Dependency) : Option Encounter :=
  dependency.target?.map fun target =>
    { key := target, label := dependency.label target, role := .ofOrigin dependency.origin }

/-- What is met by adding a file as the source of dependencies. -/
def Encounter.ofFile (file : String × List Dependency) : List Encounter :=
  { key := file.1, label := Path.fileName file.1, role := .source } ::
    file.2.filterMap Dependency.encounter?

/-- The links of a file to what its dependencies lead to. -/
def linksOfFile (file : String × List Dependency) : List (String × String) :=
  (file.2.filterMap Dependency.target?).map fun target => (file.1, target)

theorem mem_flatMap_linksOfFile {files : List (String × List Dependency)}
    {file : String × List Dependency} (hfile : file ∈ files) {dependency : Dependency}
    (hdependency : dependency ∈ file.2) {target : String}
    (htarget : dependency.target? = some target) : (file.1, target) ∈ files.flatMap linksOfFile :=
  List.mem_flatMap.mpr ⟨file, hfile,
    List.mem_map_of_mem (List.mem_filterMap.mpr ⟨dependency, hdependency, htarget⟩)⟩

namespace Graph.Traces

variable {graph : Graph} {met : List Encounter} {links : List (String × String)}

/-- A dependency added is one more meeting and one more link, or neither if it leads nowhere. -/
theorem addDependency (h : Traces graph met links) {source : String}
    (hsource : source ∈ met.map Encounter.key) (dependency : Dependency) :
    Traces (Graph.addDependency (place met source) graph dependency)
      (met ++ dependency.encounter?.toList)
      (links ++ dependency.target?.toList.map fun target => (source, target)) := by
  cases htarget : dependency.target? with
  | none =>
    have hnone : dependency.encounter? = none := by
      rw [Dependency.encounter?, htarget, Option.map_none]
    rw [Graph.addDependency, htarget, hnone]
    simpa using h
  | some target =>
    obtain ⟨encounter, hsome, hkey⟩ : ∃ encounter, dependency.encounter? = some encounter ∧
        encounter = ⟨target, dependency.label target, .ofOrigin dependency.origin⟩ := by
      exact ⟨_, by rw [Dependency.encounter?, htarget, Option.map_some], rfl⟩
    obtain ⟨hnode, hplace⟩ := h.insertNode encounter
    have hmet : source ∈ (met ++ [encounter]).map Encounter.key := by
      rw [List.map_append]
      exact List.mem_append_left _ hsource
    have hself : encounter.key ∈ (met ++ [encounter]).map Encounter.key := by simp
    have hedge := hnode.insertEdge hmet hself
    rw [place_append hsource, ← hplace] at hedge
    rw [Graph.addDependency, htarget, hsome]
    subst hkey
    exact hedge

/-- Dependencies added one after another are met and linked one after another. -/
theorem foldl_addDependency (h : Traces graph met links) {source : String}
    (hsource : source ∈ met.map Encounter.key) (dependencies : List Dependency) :
    Traces (dependencies.foldl (Graph.addDependency (place met source)) graph)
      (met ++ dependencies.filterMap Dependency.encounter?)
      (links ++ (dependencies.filterMap Dependency.target?).map fun target =>
        (source, target)) := by
  induction dependencies generalizing graph met links with
  | nil => simpa using h
  | cons dependency rest ih =>
    have hmet : source ∈ (met ++ dependency.encounter?.toList).map Encounter.key := by
      rw [List.map_append]
      exact List.mem_append_left _ hsource
    have hrest := ih (h.addDependency hsource dependency) hmet
    rw [place_append hsource] at hrest
    simp only [List.filterMap_eq_flatMap_toList] at hrest ⊢
    rw [List.foldl_cons, List.flatMap_cons, List.flatMap_cons, List.map_append, ← List.append_assoc,
      ← List.append_assoc]
    exact hrest

/-- A file added as a source is met, and then what its dependencies lead to. -/
theorem addSource (h : Traces graph met links) (file : String × List Dependency) :
    Traces (graph.addSource file.1 file.2) (met ++ Encounter.ofFile file)
      (links ++ linksOfFile file) := by
  obtain ⟨hnode, hplace⟩ := h.insertNode ⟨file.1, Path.fileName file.1, .source⟩
  have hmet :
      file.1 ∈ (met ++ [Encounter.mk file.1 (Path.fileName file.1) .source]).map Encounter.key := by
    simp
  have hadded := hnode.foldl_addDependency hmet file.2
  rw [← hplace, List.append_assoc] at hadded
  exact hadded

/-- Files added one after another are met one after another. -/
theorem foldl_addSource (h : Traces graph met links) (files : List (String × List Dependency)) :
    Traces (files.foldl (fun graph file => graph.addSource file.1 file.2) graph)
      (met ++ files.flatMap Encounter.ofFile) (links ++ files.flatMap linksOfFile) := by
  induction files generalizing graph met links with
  | nil => simpa using h
  | cons file rest ih =>
    have hrest := ih (h.addSource file)
    rw [List.foldl_cons, List.flatMap_cons, List.flatMap_cons, ← List.append_assoc,
      ← List.append_assoc]
    exact hrest

end Graph.Traces

end ImportChart
