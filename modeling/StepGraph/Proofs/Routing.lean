import StepGraph.Graph.Route
import StepGraph.Proofs.Keys

/-!
Where a handle leads. Edges are found by one text that is made of a node and a handle; as long as
handles have no colon, node and handle can be told from it, so what is found are the edges that
leave the node by the handle, in the order in which they were declared.
-/
namespace StepGraph

namespace EdgeMap

variable {edges more : List Edge} {source source' handle handle' : String} {m : EdgeMap}

theorem next?_handleOr (m : EdgeMap) (source handle : String) :
    m.next? source (handleOr handle) = m.next? source handle := by
  unfold handleOr
  split
  · rename_i h
    obtain rfl : handle = "" := String.isEmpty_iff.1 h
    have hf : m.first? source "" = m.first? source defaultHandle := rfl
    unfold next?
    rw [hf]
    cases m.first? source defaultHandle <;> rfl
  · rfl

theorem get?_foldl_add (edges : List Edge) (m : EdgeMap) (k : String) :
    (Entries.get? (edges.foldl add m) k).getD [] =
      (Entries.get? m k).getD [] ++ edges.filter fun e => key e.source e.sourceHandle == k := by
  induction edges generalizing m with
  | nil => simp
  | cons e rest ih =>
    rw [List.foldl_cons,ih,add,Entries.get?_put,List.filter_cons]
    by_cases hk : k = key e.source e.sourceHandle
    · subst hk
      simp
    · rw [if_neg hk,if_neg (by simpa using Ne.symm hk)]

theorem first?_ofEdges (edges : List Edge) (source handle : String) :
    (ofEdges edges).first? source handle =
      (edges.find? fun e => key e.source e.sourceHandle == key source handle).map Edge.target := by
  have hget := get?_foldl_add edges [] (key source handle)
  rw [show Entries.get? ([] : EdgeMap) (key source handle) = none from rfl] at hget
  unfold first? ofEdges
  rw [← List.head?_filter]
  cases hfound : Entries.get? (edges.foldl add []) (key source handle) with
  | none =>
    rw [hfound] at hget
    rw [← show [] = edges.filter _ from hget]
    rfl
  | some es =>
    rw [hfound] at hget
    rw [← show es = edges.filter _ from hget]
    rfl

theorem append_separated {s s' rest rest' : List Char} (h : ':' ∉ rest) (h' : ':' ∉ rest')
    (heq : s ++ [':',':'] ++ rest = s' ++ [':',':'] ++ rest') : s = s' ∧ rest = rest' := by
  have plain {rest : List Char} (h : ':' ∉ rest) : ∀ c ∈ rest.reverse, (c != ':') = true :=
    fun c hc => bne_iff_ne.2 (ne_of_mem_of_not_mem (List.mem_reverse.1 hc) h)
  have hback := congrArg List.reverse heq
  simp only [List.reverse_append] at hback
  have hrest := congrArg (List.takeWhile (· != ':')) hback
  have hfront := congrArg (List.dropWhile (· != ':')) hback
  rw [List.takeWhile_append_of_pos (plain h),List.takeWhile_append_of_pos (plain h')] at hrest
  rw [List.dropWhile_append_of_pos (plain h),List.dropWhile_append_of_pos (plain h')] at hfront
  exact ⟨by simpa using hfront,by simpa using hrest⟩

/-- Node and handle can be told from their key: a handle without a colon is what stands behind the
last separator. -/
theorem key_eq_iff (h : ':' ∉ handle.toList) (h' : ':' ∉ handle'.toList) :
    key source handle = key source' handle' ↔
      source = source' ∧ handleOr handle = handleOr handle' := by
  have plain {handle : String} (h : ':' ∉ handle.toList) : ':' ∉ (handleOr handle).toList := by
    unfold handleOr
    split
    · decide
    · exact h
  have chars (source handle : String) :
      (key source handle).toList = source.toList ++ [':',':'] ++ (handleOr handle).toList := by
    rw [key,String.toList_append,String.toList_append]
    rfl
  constructor
  · intro heq
    have hchars := congrArg String.toList heq
    rw [chars,chars] at hchars
    obtain ⟨hsource,hhandle⟩ := append_separated (plain h) (plain h') hchars
    exact ⟨String.toList_inj.1 hsource,String.toList_inj.1 hhandle⟩
  · rintro ⟨rfl,hh⟩
    rw [key,key,hh]

def leaves (source handle : String) (e : Edge) : Bool :=
  e.source == source && handleOr e.sourceHandle == handleOr handle

def ColonFree (edges : List Edge) : Prop := ∀ e ∈ edges, ':' ∉ e.sourceHandle.toList

theorem find?_key (hedges : ColonFree edges) (hhandle : ':' ∉ handle.toList) (source : String) :
    (edges.find? fun e => key e.source e.sourceHandle == key source handle) =
      edges.find? (leaves source handle) := by
  rw [← List.head?_filter,← List.head?_filter]
  refine congrArg List.head? (List.filter_congr fun e he => ?_)
  rw [Bool.eq_iff_iff,beq_iff_eq,key_eq_iff (hedges e he) hhandle]
  simp [leaves]

theorem first?_colonFree (hedges : ColonFree edges) (hhandle : ':' ∉ handle.toList)
    (source : String) :
    (ofEdges edges).first? source handle =
      (edges.find? (leaves source handle)).map Edge.target := by
  rw [first?_ofEdges,find?_key hedges hhandle]

/-- A route follows the first edge that leaves the node by the handle, else the first one that leaves
it by default. -/
theorem next?_colonFree (hedges : ColonFree edges) (hhandle : ':' ∉ handle.toList) (source : String) :
    (ofEdges edges).next? source handle =
      ((edges.find? (leaves source handle)).or
        (edges.find? (leaves source defaultHandle))).map Edge.target := by
  have hdefault : ':' ∉ defaultHandle.toList := by decide
  unfold next?
  rw [first?_colonFree hedges hhandle,first?_colonFree hedges hdefault]
  cases hfound : edges.find? (leaves source handle) with
  | some e => rfl
  | none =>
    simp only [Option.map_none,Option.none_or]
    split
    · rename_i h
      obtain rfl : handle = defaultHandle := beq_iff_eq.1 h
      rw [hfound]
      rfl
    · rfl

theorem next?_own (hedges : ColonFree edges) (hhandle : ':' ∉ handle.toList) (source : String) :
    (ofEdges edges).next? source handle =
      (ofEdges (edges.filter (·.source == source))).next? source handle := by
  have hown : ColonFree (edges.filter (·.source == source)) :=
    fun e he => hedges e (List.mem_filter.1 he).1
  have hfind (handle : String) : (edges.filter (·.source == source)).find? (leaves source handle) =
      edges.find? (leaves source handle) := by
    rw [List.find?_filter]
    congr 1
    funext e
    rw [Bool.eq_iff_iff]
    simp [leaves]
  rw [next?_colonFree hedges hhandle,next?_colonFree hown hhandle,hfind,hfind]

theorem next?_append (hedges : ColonFree edges) (hhandle : ':' ∉ handle.toList) {e : Edge}
    (hfound : edges.find? (leaves source handle) = some e) (more : List Edge) :
    (ofEdges (edges ++ more)).next? source handle = some e.target := by
  unfold next?
  rw [first?_ofEdges,List.find?_append,find?_key hedges hhandle,hfound]
  rfl

/-- As long as no handle has a colon, a handle leads to the target of the first edge that leaves the
node by it, or else of the first one that leaves it by default, or else nowhere. The edges of other
nodes make no difference, and a route that has its own edge stays when edges are added. -/
theorem next?_routes (hedges : ColonFree edges) (hhandle : ':' ∉ handle.toList) (source : String) :
    (ofEdges edges).next? source handle =
      ((edges.find? (leaves source handle)).or
        (edges.find? (leaves source defaultHandle))).map Edge.target ∧
    (ofEdges edges).next? source handle =
      (ofEdges (edges.filter (·.source == source))).next? source handle ∧
    ∀ e more, edges.find? (leaves source handle) = some e →
      (ofEdges (edges ++ more)).next? source handle = some e.target :=
  ⟨next?_colonFree hedges hhandle source,next?_own hedges hhandle source,
    fun _ more hfound => next?_append hedges hhandle hfound more⟩

def crossing : List Edge :=
  [{ id := "e1", source := "a::default", target := "b", sourceHandle := "x" },
    { id := "e2", source := "a", target := "c" }]

/-- Neither takes the edge of the other. -/
theorem next?_routes_crossing :
    (ofEdges crossing).next? "a" "x" = some "c" ∧
    (ofEdges crossing).next? "a::default" "" = none := by
  have hedges : ColonFree crossing := by
    unfold ColonFree crossing
    decide
  obtain ⟨hfirst,-⟩ := next?_routes hedges (show ':' ∉ "x".toList by decide) "a"
  obtain ⟨hsecond,-⟩ := next?_routes hedges (show ':' ∉ "".toList by decide) "a::default"
  exact ⟨hfirst.trans (by decide),hsecond.trans (by decide)⟩

end EdgeMap

end StepGraph
