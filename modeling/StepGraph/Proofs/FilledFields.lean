import Mathlib.Data.List.Dedup
import StepGraph.Proofs.CheckedReply
import StepGraph.Proofs.StoredMatch

/-!
What reading a message leaves in the context. The fields are filled in three rounds, literal values
first, templates second and the reply of the provider last, and of several mappings of a field the
last one counts. Every field that is filled stands in the context and in its extracted data, and
nothing else is assigned.
-/
namespace StepGraph

open Attempt Work

namespace Value

theorem text?_eq_some {v : Value} {t : String} : v.text? = some t ↔ v = .text t := by
  unfold text?
  split <;> simp_all

theorem scalar_of_cast {type : Cast.DataType} {raw v : Value} (h : raw.cast type = .ok v) :
    ∃ a, v = .scalar a := by
  have dated {render : Time.Moment → String} {s : String} (h : Cast.dated render s = .ok v) :
      ∃ a, v = .scalar a := by
    unfold Cast.dated at h
    split at h
    · exact ⟨_,(Except.ok.inj h).symm⟩
    · obtain ⟨found,-,h⟩ := eq_ok_of_bind h
      cases found with
      | none => exact ⟨_,(Except.ok.inj h).symm⟩
      | some t =>
        obtain ⟨u,-,h⟩ := eq_ok_of_bind h
        exact ⟨_,(Except.ok.inj h).symm⟩
  unfold cast at h
  split at h
  · exact ⟨_,(Except.ok.inj h).symm⟩
  · obtain ⟨s,-,h⟩ := eq_ok_of_bind h
    cases type with
    | number =>
      rw [← Except.ok.inj h]
      unfold Cast.number
      repeat' split
      all_goals exact ⟨_,rfl⟩
    | integer =>
      unfold Cast.leadingWhole at h
      dsimp only at h
      split at h
      · exact ⟨_,(Except.ok.inj h).symm⟩
      · split at h
        · cases h
        · exact ⟨_,(Except.ok.inj h).symm⟩
    | dateOnly => exact dated h
    | dateTime => exact dated h
    | _ => exact ⟨_,(Except.ok.inj h).symm⟩

end Value

namespace Steps

variable {run : Run} {node : Step Item} {config m : Value} {w w' : World} {o : Outcome}
  {ms mappings : List Value} {f k : String}

def names (f : String) (m : Value) : Bool := (m.field "fieldName").text? == some f

def lastNaming (f : String) (ms : List Value) : Option Value := (ms.filter (names f)).getLast?

/-- A mapping that has a field to fill. The extracted data itself is none. -/
structure IsMapping (m : Value) : Prop where
  object : m.isObject = true
  named : ∃ f, m.field "fieldName" = .text f ∧ f ≠ "" ∧ f ≠ Context.extractedKey

theorem names_iff : names f m = true ↔ m.field "fieldName" = .text f := by
  unfold names
  rw [beq_iff_eq,Value.text?_eq_some]

theorem lastNaming_cons (f : String) (m : Value) (ms : List Value) :
    lastNaming f (m :: ms) = (lastNaming f ms).or (if names f m then some m else none) := by
  unfold lastNaming
  rw [List.filter_cons]
  split
  · rw [List.getLast?_cons]
    cases (ms.filter (names f)).getLast? <;> rfl
  · rw [Option.or_none]

theorem lastNaming_eq_none : lastNaming f ms = none ↔ ∀ m ∈ ms, names f m = false := by
  simp [lastNaming]

theorem names_of_lastNaming (h : lastNaming f ms = some m) : m.field "fieldName" = .text f := by
  have hm : names f m = true := (List.mem_filter.1 (List.mem_of_getLast? h)).2
  exact names_iff.1 hm

variable {value : Value → Except Fault Value} {done out : Filled}

theorem fillField_eq (hm : IsMapping m) (hf : m.field "fieldName" = .text f) :
    fillField value done m = (fun x => Entries.put done f x) <$> (value m >>= castTo m) := by
  obtain ⟨name,hname,hne,-⟩ := hm.named
  obtain rfl : name = f := by simpa using hname.symm.trans hf
  unfold fillField
  rw [hname]
  dsimp only
  rw [truthy_text hne,if_neg (by simp)]
  cases value m with
  | error fault => rfl
  | ok raw =>
    change (castTo m raw >>= _) = _ <$> castTo m raw
    cases castTo m raw <;> rfl

/-- A round fills each field as its last mapping says, and leaves the others as they were. -/
theorem get?_filled (hms : ∀ m ∈ ms, IsMapping m)
    (h : ms.foldlM (fillField value) done = .ok out) (f : String) :
    (Entries.get? out f).map Except.ok =
      ((lastNaming f ms).map fun m => value m >>= castTo m).or
        ((Entries.get? done f).map Except.ok) := by
  induction ms generalizing done with
  | nil =>
    cases h
    rfl
  | cons m ms ih =>
    obtain ⟨hm,hms⟩ := List.forall_mem_cons.1 hms
    rw [List.foldlM_cons] at h
    obtain ⟨next,hnext,h⟩ := eq_ok_of_bind h
    obtain ⟨name,hname,-⟩ := hm.named
    rw [fillField_eq hm hname] at hnext
    obtain ⟨x,hx,hput⟩ := eq_ok_of_bind hnext
    obtain rfl := Except.ok.inj hput
    rw [ih hms h,lastNaming_cons]
    by_cases hf : f = name
    · subst hf
      rw [Entries.get?_put_self,if_pos (names_iff.2 hname)]
      cases lastNaming f ms with
      | none => simp [hx]
      | some last => rfl
    · have hother : names f m = false := by
        rw [← Bool.not_eq_true,names_iff,hname]
        simpa using Ne.symm hf
      rw [Entries.get?_put_of_ne hf,hother,if_neg Bool.false_ne_true,Option.or_none]

theorem nodup_filled (h : ms.foldlM (fillField value) done = .ok out) (hd : done.keys.Nodup) :
    out.keys.Nodup := by
  refine of_foldlM (P := fun es => es.keys.Nodup) (fun x y m _ hm hx => ?_) hd h
  unfold fillField at hm
  dsimp only at hm
  split at hm
  · cases hm
    exact hx
  · obtain ⟨v,-,hm⟩ := eq_ok_of_bind hm
    obtain ⟨v,-,hm⟩ := eq_ok_of_bind hm
    obtain ⟨name,-,hm⟩ := eq_ok_of_bind hm
    cases hm
    exact Entries.nodup_put hx _ _

end Steps

namespace Store

variable {s s' : Store} {c e i j x : Item} {k k' : String} {es : Entries Item}

theorem entries_of_layer (h : s.layer i = .object es) : s.entries i = es := by
  simp only [entries,h]

theorem entries_of_not_container (h : s.isContainer i = false) : s.entries i = [] := by
  unfold isContainer at h
  unfold entries
  cases hl : s.layer i with
  | object es =>
    rw [hl] at h
    cases h
  | _ => rfl

theorem Grows.not_container (hg : s.Grows s') (h : s'.isContainer i = false) :
    s.isContainer i = false := by
  rw [← Bool.not_eq_true] at h ⊢
  intro hi
  rw [isContainer,hg.layer_of_isContainer hi] at h
  exact h hi

theorem isContainer_congr (h : s'.layer i = s.layer i) : s'.isContainer i = s.isContainer i := by
  rw [isContainer,isContainer,h]

theorem field_of_entry (h' : s'.isObject i = true) (h : s.isObject i = true)
    (hk : Entries.get? (s'.entries i) k = Entries.get? (s.entries i) k) :
    s'.field i k = s.field i k := by
  obtain ⟨es',hl'⟩ := layer_of_isObject h'
  obtain ⟨es,hl⟩ := layer_of_isObject h
  rw [entries_of_layer hl',entries_of_layer hl] at hk
  rw [field_of_layer hl',field_of_layer hl,hk]

theorem entries_congr (h : s'.layer i = s.layer i) : s'.entries i = s.entries i := by
  simp only [entries,h]

def putBoth (s : Store) (c e : Item) (later : Entries Item) : Store :=
  later.foldl (fun s x => (s.putField c x.1 x.2).putField e x.1 x.2) s

/-- What assigning entries of two objects leaves. -/
structure AssignedBoth (c e : Item) (later : Entries Item) (s s' : Store) : Prop where
  object : ∀ j, s'.isObject j = s.isObject j
  entry : ∀ j ∈ [c,e], ∀ k, Entries.get? (s'.entries j) k =
    (Entries.last? later k).or (Entries.get? (s.entries j) k)
  apart : ∀ j, j ∉ [c,e] → s'.layer j = s.layer j

theorem assigned_once (hc : s.isObject c = true) (he : s.isObject e = true) (k : String) (x : Item) :
    AssignedBoth c e [(k,x)] s ((s.putField c k x).putField e k x) := by
  have hec : (s.putField c k x).isObject e = true := by rw [isObject_putField hc,he]
  obtain ⟨es,hl⟩ := layer_of_isObject hc
  obtain ⟨hfirst,hbeside⟩ := layer_putField hl k x
  obtain ⟨ee,hle⟩ := layer_of_isObject hec
  obtain ⟨hsecond,hbehind⟩ := layer_putField hle k x
  have hlast (k' : String) (old : Option Item) :
      (Entries.last? [(k,x)] k').or old = if k' = k then some x else old := by
    rw [Entries.last?_cons]
    change (if k' = k then some x else none).or old = _
    split <;> rfl
  refine ⟨fun j => by rw [isObject_putField hec,isObject_putField hc],fun j hj k' => ?_,
    fun j hj => ?_⟩
  · rw [hlast]
    by_cases hje : j = e
    · subst hje
      rw [entries_of_layer hsecond,Entries.get?_put]
      split
      · rfl
      · rename_i hk
        by_cases hjc : j = c
        · subst hjc
          rw [entries_of_layer hl,← Entries.get?_put_of_ne hk es x]
          exact congrArg (Entries.get? · k') (Layer.object.inj (hle.symm.trans hfirst))
        · rw [← entries_of_layer hle,entries_congr (hbeside j hjc)]
    · obtain rfl : j = c := by simpa [hje] using hj
      rw [entries_congr (hbehind j hje),entries_of_layer hfirst,entries_of_layer hl,
        Entries.get?_put]
  · simp only [List.mem_cons,List.not_mem_nil,or_false,not_or] at hj
    exact (hbehind j hj.2).trans (hbeside j hj.1)

theorem assignedBoth (hc : s.isObject c = true) (he : s.isObject e = true)
    (later : Entries Item) : AssignedBoth c e later s (s.putBoth c e later) := by
  induction later generalizing s with
  | nil => exact ⟨fun _ => rfl,fun _ _ _ => rfl,fun _ _ => rfl⟩
  | cons x rest ih =>
    have hone := assigned_once hc he x.1 x.2
    have hrest := ih ((hone.object c).trans hc) ((hone.object e).trans he)
    refine ⟨fun j => (hrest.object j).trans (hone.object j),fun j hj k => ?_,
      fun j hj => (hrest.apart j hj).trans (hone.apart j hj)⟩
    rw [Entries.last?_cons,Option.or_assoc]
    exact (hrest.entry j hj k).trans (congrArg _ (hone.entry j hj k))

end Store

namespace Context

variable {s : Store} {c : Item}

/-- The extracted data that a context has or is given: they are an object of their own when they are
new, and everything else stays. -/
structure Ensured (c e : Item) (s s' : Store) : Prop where
  context : s'.isObject c = true
  extracted : extracted? s' c = some e
  kept : ∀ e', extracted? s c = some e' → e' = e
  made : extracted? s c = none → s.isContainer e = false
  root : ∀ k, k ≠ extractedKey → Entries.get? (s'.entries c) k = Entries.get? (s.entries c) k
  data : s'.entries e = s.entries e
  apart : ∀ j, s.isContainer j = true → j ≠ c → s'.layer j = s.layer j

theorem ensured (hc : s.isObject c = true) :
    Ensured c (ensureExtracted s c).2 s (ensureExtracted s c).1 := by
  unfold ensureExtracted
  cases he : extracted? s c with
  | some e =>
    exact ⟨hc,he,fun e' h => Option.some.inj (h.symm.trans he),fun h => by simp [he] at h,
      fun _ _ => rfl,rfl,fun _ _ _ => rfl⟩
  | none =>
    -- a new object takes the place of extracted data that are none
    obtain ⟨es,hl⟩ := Store.layer_of_isObject hc
    obtain ⟨-,hfresh,-⟩ := Store.alloc_layer s (.object [])
    have hg := Store.alloc_grows s (.object [])
    have hnew : s.layer (s.alloc (.object [])).2 = .scalar .null := by
      simp [Store.alloc,Store.layer]
    have hlc := (hg.layer hc).trans hl
    have hne : (s.alloc (.object [])).2 ≠ c := by
      rintro rfl
      rw [hnew] at hl
      cases hl
    have hobject := Store.isObject_of_layer hlc
    obtain ⟨hput,hother⟩ := Store.layer_putField hlc extractedKey (s.alloc (.object [])).2
    have hlast := (hother _ hne).trans hfresh
    constructor
    case context => exact Store.isObject_of_layer hput
    case extracted =>
      exact extracted?_eq_some.2 ⟨Store.field_putField_self hobject _ _,Store.isObject_of_layer hlast⟩
    case kept =>
      intro e' h
      rw [he] at h
      cases h
    case made =>
      intro _
      rw [Store.isContainer,hnew]
      rfl
    case root =>
      intro k hk
      exact (congrArg (Entries.get? · k) (Store.entries_of_layer hput)).trans
        ((Entries.get?_put_of_ne hk _ _).trans
          (congrArg (Entries.get? · k) (Store.entries_of_layer hl).symm))
    case data =>
      refine (Store.entries_of_layer hlast).trans ?_
      rw [Store.entries,hnew]
    case apart =>
      intro j hj hjc
      exact (hother j hjc).trans (hg.layer_of_isContainer hj)

def fill (s : Store) (c : Item) (later : Entries Item) : Store :=
  (ensureExtracted s c).1.putBoth c (ensureExtracted s c).2 later

end Context

namespace Steps

variable {run : Run} {node : Step Item} {config m : Value} {w w' : World} {o : Outcome}
  {ms mappings : List Value} {fields : Filled} {f k : String}

def leafOf : Value → Item
  | .scalar a => .leaf a
  | _ => .null

theorem exec_writeFields (hf : ∀ e ∈ fields, ∃ a, e.2 = .scalar a) (w : World) :
    (writeFields run fields).exec w =
      (.ok ⟨⟩,{ w with store := Context.fill w.store run.context (fields.mapValues leafOf) }) := by
  have hensure : (Work.edit (Edit.run' fun s => Context.ensureExtracted s run.context)).exec w =
      (.ok (Context.ensureExtracted w.store run.context).2,
        { w with store := (Context.ensureExtracted w.store run.context).1 }) := rfl
  unfold writeFields Context.fill
  rw [exec_bind_ok hensure]
  generalize (Context.ensureExtracted w.store run.context).1 = s
  generalize (Context.ensureExtracted w.store run.context).2 = e
  induction fields generalizing s with
  | nil => rfl
  | cons field rest ih =>
    obtain ⟨⟨a,ha⟩,hrest⟩ := List.forall_mem_cons.1 hf
    obtain ⟨name,v⟩ := field
    obtain rfl : v = .scalar a := ha
    exact ih hrest _

def stepScope (run : Run) (w : World) : Scope := (Scope.ofItem w.store run.context).written

def objectOf : Value → Value
  | .object es => .object es
  | _ => .object []

def ofType (type : String) (mappings : List Value) : List Value :=
  mappings.filter fun m => (m.field "type").text? == some type

/-- A raw value in the type of data that a mapping wants; text where the mapping wants none. -/
def typed (m raw : Value) : Except Fault Value :=
  raw.cast (Value.Cast.DataType.ofValue ((m.field "dataType").orElse (.text "string")))

/-- The value that a field ends with: the last mapping for the provider has it from the reply, else
the last one with a template from the context, else the last literal one has it itself. -/
def settled (scope : Scope) (reply : Value) (mappings : List Value) (f : String) :
    Option (Except Fault Value) :=
  ((lastNaming f (ofType "ai" mappings)).map fun m => typed m (reply.field f)).or <|
  ((lastNaming f (ofType "function" mappings)).map fun m => do
    let text ← Template.resolve scope ((m.field "value").orElse (.text ""))
    typed m (.text text)).or <|
  (lastNaming f (ofType "hardcoded" mappings)).map fun m => typed m (m.field "value")

theorem ofKind_eq (kind : String) (mappings : List Value) :
    ofKind kind mappings = ofType kind mappings := by
  refine List.filter_congr fun m _ => ?_
  cases m.field "type" with
  | scalar a => cases a <;> rfl
  | list xs => rfl
  | object es => rfl

theorem askFields_ok {done : Filled} (h : (askFields run node ms done).exec w = (.ok fields,w')) :
    w.store.Grows w'.store ∧
    (∃ question, w'.calls = w.calls ++
      [.ai [Ai.textPart question] Ai.defaultTemperature Ai.defaultMaxTokens]) ∧
    ∃ reply, replied? w = some reply ∧
      ms.foldlM (fillField (replyValue (objectOf reply))) done = .ok fields := by
  unfold askFields at h
  obtain ⟨p,-,h⟩ := ReadOnly.provider.found h
  obtain ⟨subject,-,h⟩ := (entryValue_readOnly run _).found h
  obtain ⟨body,-,h⟩ := (entryValue_readOnly run _).found h
  obtain ⟨question,-,h⟩ := ReadOnly.found_of h
  obtain ⟨text,w₁,htext,h⟩ := exec_bind_eq_ok h
  obtain ⟨hcalls,hstore,p,hp,htext⟩ := complete_ok htext
  obtain ⟨reply,hread,h⟩ := ReadOnly.found_of h
  extract_lets kept at h
  have hkept : kept = objectOf reply := by cases reply <;> rfl
  clear_value kept
  subst hkept
  obtain ⟨filled,hfilled,h⟩ := ReadOnly.found_of h
  obtain ⟨_,-,h⟩ := ReadOnly.found_of h
  obtain ⟨_,-,h⟩ := ReadOnly.found_of h
  obtain ⟨input,w₂,hw,h⟩ := (Onward.plant _).ahead h
  obtain ⟨_,w₃,hw,h⟩ := (Onward.of _).further hw h
  obtain ⟨output,w₄,hw,h⟩ := (Onward.plant _).further hw h
  obtain ⟨⟨⟩,w₅,hw,h⟩ := (logPhase_onward run node _ _ _ _ _).further hw h
  cases h
  refine ⟨hstore ▸ hw.2,⟨question,hw.calls.trans hcalls⟩,reply,?_,?_⟩
  · unfold replied?
    rw [hp]
    dsimp only
    rw [htext]
    dsimp only
    rw [read_eq_ok.1 hread]
    rfl
  · exact hfilled

theorem get?_rounds {scope : Scope} {reply : Value} {done₀ done₁ : Filled}
    (hms : ∀ m ∈ mappings, IsMapping m)
    (h₀ : (ofKind "hardcoded" mappings).foldlM (fillField literalValue) [] = .ok done₀)
    (h₁ : (ofKind "function" mappings).foldlM (fillField (templateValue scope)) done₀ = .ok done₁)
    (h₂ : (ofKind "ai" mappings).foldlM (fillField (replyValue reply)) done₁ = .ok fields)
    (f : String) : (Entries.get? fields f).map Except.ok = settled scope reply mappings f := by
  have hkind (kind : String) : ∀ m ∈ ofKind kind mappings, IsMapping m :=
    fun m hm => hms m (List.mem_of_mem_filter hm)
  rw [get?_filled (hkind _) h₂,get?_filled (hkind _) h₁,get?_filled (hkind _) h₀,ofKind_eq,ofKind_eq,
    ofKind_eq,settled]
  congr 1
  · cases hlast : lastNaming f (ofType "ai" mappings) with
    | none => rfl
    | some m =>
      have hreply : replyValue reply m = .ok (reply.field f) := by
        rw [replyValue,names_of_lastNaming hlast]
      rw [Option.map_some,hreply]
      rfl
  · congr 1
    · refine congrArg (Option.map · _) (funext fun m => ?_)
      unfold templateValue
      cases Template.resolve scope ((m.field "value").orElse (.text "")) <;> rfl
    · exact Option.or_none

theorem scalar_of_settled {scope : Scope} {reply v : Value}
    (h : settled scope reply mappings f = some (.ok v)) : ∃ a, v = .scalar a := by
  have cast {m raw : Value} (h : typed m raw = .ok v) : ∃ a, v = .scalar a :=
    Value.scalar_of_cast h
  unfold settled at h
  rcases Option.or_eq_some_iff.1 h with h | ⟨-,h⟩
  · obtain ⟨m,-,h⟩ := Option.map_eq_some_iff.1 h
    exact cast h
  rcases Option.or_eq_some_iff.1 h with h | ⟨-,h⟩
  · obtain ⟨m,-,h⟩ := Option.map_eq_some_iff.1 h
    obtain ⟨raw,-,h⟩ := eq_ok_of_bind h
    exact cast h
  · obtain ⟨m,-,h⟩ := Option.map_eq_some_iff.1 h
    exact cast h

def filledNames (mappings : List Value) : List String :=
  ((ofType "ai" mappings ++ ofType "function" mappings ++ ofType "hardcoded" mappings).filterMap
    fun m => (m.field "fieldName").text?).dedup

theorem settled_eq_none {scope : Scope} {reply : Value} :
    settled scope reply mappings f = none ↔ f ∉ filledNames mappings := by
  have hnone (ms : List Value) : lastNaming f ms = none ↔
      f ∉ ms.filterMap fun m => (m.field "fieldName").text? := by
    rw [lastNaming_eq_none]
    simp [names]
  simp only [settled,filledNames,Option.or_eq_none_iff,Option.map_eq_none_iff,hnone,
    List.mem_dedup,List.filterMap_append,List.mem_append,not_or,and_assoc]

theorem settled_extractedKey {scope : Scope} {reply : Value} (hms : ∀ m ∈ mappings, IsMapping m) :
    settled scope reply mappings Context.extractedKey = none := by
  rw [settled_eq_none,filledNames,List.mem_dedup,List.mem_filterMap]
  rintro ⟨m,hm,hname⟩
  have hm : m ∈ mappings := by
    simp only [List.mem_append] at hm
    rcases hm with (hm | hm) | hm <;> exact List.mem_of_mem_filter hm
  obtain ⟨f,hf,-,hother⟩ := (hms m hm).named
  rw [hf] at hname
  exact hother (Option.some.inj hname)

theorem length_rounds {scope : Scope} {reply : Value} (hd : fields.keys.Nodup)
    (h : ∀ f, (Entries.get? fields f).map Except.ok = settled scope reply mappings f) :
    fields.length = (filledNames mappings).length := by
  have hmem (f : String) : f ∈ fields.keys ↔ f ∈ filledNames mappings := by
    have hnone : settled scope reply mappings f = none ↔ f ∉ filledNames mappings :=
      settled_eq_none
    rw [← not_iff_not,← hnone,← h f,Option.map_eq_none_iff,Entries.get?_eq_none]
  have hperm : fields.keys.Perm (filledNames mappings) :=
    (List.perm_ext_iff_of_nodup hd (List.nodup_dedup _)).2 hmem
  rw [← hperm.length_eq,Entries.keys,List.length_map]

end Steps

namespace Context

variable {s s₁ s' : Store} {c e : Item}

theorem extracted?_of_grows (hc : s.isObject c = true)
    (hstands : (get s c extractedKey).In (· < s.cells.size)) (hg : s.Grows s₁) :
    extracted? s₁ c = extracted? s c := by
  cases he : extracted? s c with
  | some e => exact extracted?_grows hc hg he
  | none =>
    rw [Option.eq_none_iff_forall_ne_some]
    intro e he₁
    obtain ⟨hentry,hobject⟩ := extracted?_eq_some.1 he₁
    have hsame : get s c extractedKey = e :=
      (Store.field_congr (hg.layer hc) extractedKey).symm.trans hentry
    rw [hsame] at hstands
    have hlayer : s₁.layer e = s.layer e := by
      cases e with
      | leaf a => rfl
      | cell id =>
        have hid := Array.getElem?_eq_getElem hstands
        exact Store.layer_eq_of_cells ((hg _ _ hid).trans hid.symm)
    have hthere : extracted? s c = some e :=
      extracted?_eq_some.2 ⟨hsame,(Store.isObject_congr hlayer).symm.trans hobject⟩
    rw [he] at hthere
    cases hthere

theorem Ensured.data_before {s₂ : Store} (h : Ensured c e s₁ s₂)
    (hfound : extracted? s₁ c = extracted? s c) (hg : s.Grows s₁) : s₁.entries e = s.entries e := by
  cases hthere : extracted? s c with
  | some e' =>
    obtain rfl := h.kept e' (hfound.trans hthere)
    exact Store.entries_congr (hg.layer (extracted?_eq_some.1 hthere).2)
  | none =>
    have hnew := h.made (hfound.trans hthere)
    rw [Store.entries_of_not_container hnew,Store.entries_of_not_container (hg.not_container hnew)]

/-- What filling leaves in a context and in its extracted data. Both hold each value that was filled
in; no other entry of the context is touched but the extracted data themselves, which are made where
there were none, and keep what else they held. -/
structure HoldsFilled (c e : Item) (values : String → Option (Except Fault Value)) (s s' : Store) :
    Prop where
  extracted : extracted? s' c = some e
  kept : ∀ e', extracted? s c = some e' → e' = e
  made : extracted? s c = none → s.isContainer e = false
  field : ∀ f r, values f = some r → ∃ a, r = .ok (.scalar a) ∧
    ∀ j ∈ [c,e], Entries.get? (s'.entries j) f = some (.leaf a)
  root : ∀ k, values k = none → k ≠ extractedKey →
    Entries.get? (s'.entries c) k = Entries.get? (s.entries c) k
  data : ∀ k, values k = none → Entries.get? (s'.entries e) k = Entries.get? (s.entries e) k
  apart : ∀ j, s.isContainer j = true → j ∉ [c,e] → s'.layer j = s.layer j

theorem get?_leaves {fields : Entries Value} {values : String → Option (Except Fault Value)}
    (hd : fields.keys.Nodup)
    (hvalues : ∀ f, (Entries.get? fields f).map Except.ok = values f) (k : String) :
    (values k = none → Entries.last? (fields.mapValues Steps.leafOf) k = none) ∧
      ∀ r, values k = some r → ∃ v, r = .ok v ∧
        Entries.last? (fields.mapValues Steps.leafOf) k = some (Steps.leafOf v) := by
  have hkeys : (fields.mapValues Steps.leafOf).keys.Nodup := by
    rw [Entries.mapValues,Entries.keys,List.map_map]
    exact hd
  rw [Entries.last?_eq hkeys,Entries.mapValues,Entries.get?_map,← hvalues k]
  cases Entries.get? fields k with
  | none => simp
  | some v =>
    refine ⟨fun h => (by cases h),fun r hr => ⟨v,?_,rfl⟩⟩
    exact (Option.some.inj hr).symm

theorem filled {fields : Entries Value} {values : String → Option (Except Fault Value)}
    (hc : s.isObject c = true) (hstands : (get s c extractedKey).In (· < s.cells.size))
    (hg : s.Grows s₁) (hd : fields.keys.Nodup)
    (hvalues : ∀ f, (Entries.get? fields f).map Except.ok = values f)
    (hscalar : ∀ f v, values f = some (.ok v) → ∃ a, v = .scalar a)
    (hkey : values extractedKey = none)
    (hg' : (fill s₁ c (fields.mapValues Steps.leafOf)).Grows s') :
    HoldsFilled c (ensureExtracted s₁ c).2 values s s' := by
  have hc₁ : s₁.isObject c = true := (Store.isObject_congr (hg.layer hc)).trans hc
  have hfound := extracted?_of_grows hc hstands hg
  have hmade := ensured hc₁
  obtain ⟨hentry,he⟩ := extracted?_eq_some.1 hmade.extracted
  have hboth := Store.assignedBoth hmade.context he (fields.mapValues Steps.leafOf)
  unfold fill at hg'
  -- from here on only what was said of the two objects counts, however they came about
  generalize (ensureExtracted s₁ c).2 = e at *
  generalize (ensureExtracted s₁ c).1 = s₂ at *
  generalize s₂.putBoth c e (fields.mapValues Steps.leafOf) = s₃ at *
  have hobject : ∀ j ∈ [c,e], s₃.isObject j = true := by
    simp only [List.forall_mem_cons,List.not_mem_nil,false_imp_iff,implies_true,and_true,
      hboth.object]
    exact ⟨hmade.context,he⟩
  have hentries (j : Item) (hj : j ∈ [c,e]) (k : String) : Entries.get? (s'.entries j) k =
      (Entries.last? (fields.mapValues Steps.leafOf) k).or (Entries.get? (s₂.entries j) k) :=
    (congrArg (Entries.get? · k) (Store.entries_congr (hg'.layer (hobject j hj)))).trans
      (hboth.entry j hj k)
  have hkept (j : Item) (hj : j ∈ [c,e]) (k : String) (hk : values k = none) :
      Entries.get? (s'.entries j) k = Entries.get? (s₂.entries j) k := by
    rw [hentries j hj k,(get?_leaves hd hvalues k).1 hk]
    rfl
  constructor
  case extracted =>
    have hobject' (j : Item) (hj : j ∈ [c,e]) : s'.isObject j = true :=
      (Store.isObject_congr (hg'.layer (hobject j hj))).trans (hobject j hj)
    refine extracted?_eq_some.2 ⟨?_,hobject' e (by simp)⟩
    rw [← hentry]
    exact Store.field_of_entry (hobject' c (by simp)) hmade.context (hkept c (by simp) _ hkey)
  case kept => exact fun e' h => hmade.kept e' (hfound.trans h)
  case made => exact fun h => hg.not_container (hmade.made (hfound.trans h))
  case field =>
    intro f r hr
    obtain ⟨v,rfl,hlast⟩ := (get?_leaves hd hvalues f).2 r hr
    obtain ⟨a,rfl⟩ := hscalar f v hr
    refine ⟨a,rfl,fun j hj => ?_⟩
    rw [hentries j hj f,hlast]
    rfl
  case root =>
    intro k hk hne
    rw [hkept c (by simp) k hk,hmade.root k hne,Store.entries_congr (hg.layer hc)]
  case data =>
    intro k hk
    rw [hkept e (by simp) k hk,hmade.data,hmade.data_before hfound hg]
  case apart =>
    intro j hj hout
    have h₁ := hg.layer_of_isContainer hj
    have hc' : j ≠ c := fun h => hout (by simp [h])
    have h₃ : s₃.layer j = s.layer j := (hboth.apart j hout).trans
      ((hmade.apart j ((Store.isContainer_congr h₁).trans hj) hc').trans h₁)
    exact (hg'.layer_of_isContainer ((Store.isContainer_congr h₃).trans hj)).trans h₃

end Context

namespace Steps

variable {run : Run} {node : Step Item} {config : Value} {w w' : World} {o : Outcome}
  {mappings : List Value} {f : String}

/-- The provider is asked once, and replies, where a mapping wants that, and else not at all. -/
def AskedOnce (mappings : List Value) (w w' : World) : Prop :=
  if ofType "ai" mappings = [] then w'.calls = w.calls
  else ∃ question reply, replied? w = some reply ∧
    w'.calls = w.calls ++ [.ai [Ai.textPart question] Ai.defaultTemperature Ai.defaultMaxTokens]

def nextReply (w : World) : Value := objectOf ((replied? w).getD .null)

theorem noteFields_onward (run : Run) (ms : List Value) : Keeps Onward (noteFields run ms) := by
  refine Keeps.closed.forM fun m _ => ?_
  dsimp only
  split
  · unfold Run.noteName
    split
    · exact Keeps.closed.pure _
    · exact fun w => ⟨rfl,refl_of Store.Grows w.store⟩
  · exact Keeps.closed.pure _

def finishReading (run : Run) (mappings : List Value) (fields : Filled) : Work Outcome := do
  writeFields run fields
  noteFields run (ofKind "hardcoded" mappings ++ ofKind "function" mappings ++ ofKind "ai" mappings)
  let output ← Work.plant (.object [("fieldsExtracted",.ofNat fields.length),
    ("fields",.object fields),("aiFieldCount",.ofNat (ofKind "ai" mappings).length),
    ("hardcodedFieldCount",.ofNat (ofKind "hardcoded" mappings).length),
    ("functionFieldCount",.ofNat (ofKind "function" mappings).length)])
  return { output := output }

theorem finishReading_ok {fields : Filled} (hf : ∀ e ∈ fields, ∃ a, e.2 = .scalar a)
    (h : (finishReading run mappings fields).exec w = (.ok o,w')) :
    w'.calls = w.calls ∧
    (Context.fill w.store run.context (fields.mapValues leafOf)).Grows w'.store ∧
    Entries.get? (w'.store.entries o.output) "fieldsExtracted" =
      some (.leaf (.int fields.length)) := by
  unfold finishReading at h
  rw [exec_bind_ok (exec_writeFields hf w)] at h
  obtain ⟨⟨⟩,w₁,hw,h⟩ := (noteFields_onward run _).ahead h
  obtain ⟨output,w₂,hplant,h⟩ := exec_bind_eq_ok h
  cases h
  obtain ⟨hspells,hw'⟩ := plant_ok hplant
  have hall := trans_of Onward hw hw'
  refine ⟨hall.calls,hall.2,?_⟩
  obtain ⟨j,n,hj,hleaf⟩ := spells_entry (k := "fieldsExtracted") hspells rfl
  cases hleaf
  exact hj

theorem finishReading_fills {scope : Scope} {reply : Value} {w₁ : World} {done₀ done₁ fields : Filled}
    (hms : ∀ m ∈ mappings, IsMapping m) (hcontext : w.store.isObject run.context = true)
    (hstands : (Context.get w.store run.context Context.extractedKey).In (· < w.store.cells.size))
    (h₀ : (ofKind "hardcoded" mappings).foldlM (fillField literalValue) [] = .ok done₀)
    (h₁ : (ofKind "function" mappings).foldlM (fillField (templateValue scope)) done₀ = .ok done₁)
    (h₂ : (ofKind "ai" mappings).foldlM (fillField (replyValue reply)) done₁ = .ok fields)
    (hg : w.store.Grows w₁.store)
    (h : (finishReading run mappings fields).exec w₁ = (.ok o,w')) :
    w'.calls = w₁.calls ∧
    (∃ e, Context.HoldsFilled run.context e (settled scope reply mappings) w.store w'.store) ∧
    Entries.get? (w'.store.entries o.output) "fieldsExtracted" =
      some (.leaf (.int (filledNames mappings).length)) := by
  have hvalues := get?_rounds hms h₀ h₁ h₂
  have hd : fields.keys.Nodup := nodup_filled h₂ (nodup_filled h₁ (nodup_filled h₀ List.nodup_nil))
  have hscalar : ∀ e ∈ fields, ∃ a, e.2 = .scalar a := by
    intro e he
    have hsettled : settled scope reply mappings e.1 = some (.ok e.2) := by
      rw [← hvalues,Entries.get?_of_mem hd he]
      rfl
    exact scalar_of_settled hsettled
  obtain ⟨hcalls,hgrows,hout⟩ := finishReading_ok hscalar h
  rw [length_rounds hd hvalues] at hout
  have hfilled := Context.filled hcontext hstands hg hd hvalues (fun _ _ => scalar_of_settled)
    (settled_extractedKey hms) hgrows
  exact ⟨hcalls,⟨_,hfilled⟩,hout⟩

theorem readMappings_fills (hms : ∀ m ∈ mappings, IsMapping m)
    (hcontext : w.store.isObject run.context = true)
    (hstands : (Context.get w.store run.context Context.extractedKey).In (· < w.store.cells.size))
    (h : (readMappings run node mappings).exec w = (.ok o,w')) :
    AskedOnce mappings w w' ∧
    (∃ e, Context.HoldsFilled run.context e (settled (stepScope run w) (nextReply w) mappings)
      w.store w'.store) ∧
    Entries.get? (w'.store.entries o.output) "fieldsExtracted" =
      some (.leaf (.int (filledNames mappings).length)) := by
  unfold readMappings at h
  extract_lets hardcoded functions asked finish at h
  obtain ⟨done₀,h₀,h⟩ := ReadOnly.found_of h
  obtain ⟨scope,hscope,h⟩ := (scope_readOnly run).found h
  obtain rfl : stepScope run w = scope := Except.ok.inj hscope
  obtain ⟨done₁,h₁,h⟩ := ReadOnly.found_of h
  -- the first two rounds are through, and both have looked at the world before the step
  obtain ⟨input,w₁,hw,h⟩ := (Onward.plant _).ahead h
  obtain ⟨output,w₂,hw,h⟩ := (Onward.plant _).further hw h
  obtain ⟨⟨⟩,w₃,hw,h⟩ := (logPhase_onward run node _ _ _ _ _).further hw h
  unfold AskedOnce
  split at h
  · rename_i hnone
    have hasked : ofType "ai" mappings = [] := by
      rw [← ofKind_eq]
      exact List.isEmpty_iff.1 hnone
    have h₂ : (ofKind "ai" mappings).foldlM (fillField (replyValue (nextReply w))) done₁ =
        .ok done₁ := by
      rw [ofKind_eq,hasked]
      rfl
    rw [pure_bind] at h
    obtain ⟨hcalls,hrest⟩ := finishReading_fills hms hcontext hstands h₀ h₁ h₂ hw.2 h
    rw [if_pos hasked]
    exact ⟨hcalls.trans hw.calls,hrest⟩
  · rename_i hsome
    have hasked : ofType "ai" mappings ≠ [] := by
      rw [← ofKind_eq]
      exact fun hn => hsome (List.isEmpty_iff.2 hn)
    obtain ⟨fields,w₄,hfields,h⟩ := exec_bind_eq_ok h
    obtain ⟨hg,⟨question,hcall⟩,reply,hreply,h₂⟩ := askFields_ok hfields
    rw [replied?_eq hw.ai] at hreply
    have hnext : nextReply w = objectOf reply := by
      rw [nextReply,hreply]
      rfl
    rw [← hnext] at h₂
    obtain ⟨hcalls,hrest⟩ := finishReading_fills hms hcontext hstands h₀ h₁ h₂
      (trans_of Store.Grows hw.2 hg) h
    rw [if_neg hasked]
    exact ⟨⟨question,reply,hreply,by rw [hcalls,hcall,hw.calls]⟩,hrest⟩

/-- A step that reads a message and completes fills every field that its mappings name, in the
context and in the extracted data alike, with the value of the mapping that counts, and touches
nothing else. -/
theorem readEmail_fills (hconfig : w.store.read node.config = .ok config)
    (hlist : config.field "emailFieldMappings" = .list mappings) (hne : mappings ≠ [])
    (hms : ∀ m ∈ mappings, IsMapping m) (hcontext : w.store.isObject run.context = true)
    (hstands : (Context.get w.store run.context Context.extractedKey).In (· < w.store.cells.size))
    (h : (readEmail run node).exec w = (.ok o,w')) :
    AskedOnce mappings w w' ∧
    (∃ e, Context.HoldsFilled run.context e (settled (stepScope run w) (nextReply w) mappings)
      w.store w'.store) ∧
    Entries.get? (w'.store.entries o.output) "fieldsExtracted" =
      some (.leaf (.int (filledNames mappings).length)) := by
  unfold readEmail at h
  rw [exec_bind_ok (exec_read hconfig),hlist] at h
  have hparts : (Value.list mappings).optionalParts = .ok mappings := by
    cases mappings with
    | nil => exact absurd rfl hne
    | cons m ms => rfl
  have hobjects : mappings.filter Value.isObject = mappings :=
    List.filter_eq_self.2 fun m hm => (hms m hm).object
  rw [hparts] at h
  obtain ⟨ms,hms',h⟩ := ReadOnly.found_of h
  obtain rfl := Except.ok.inj hms'
  dsimp only at h
  rw [hobjects,if_neg (by simpa using hne)] at h
  exact readMappings_fills hms hcontext hstands h

def mailStep : Step Item := { id := "r", type := "read_email", config := .cell 1 }

def mailMappings : List Value :=
  [.object [("fieldName",.text "x"),("type",.text "ai")],
    .object [("fieldName",.text "x"),("type",.text "hardcoded"),("value",.text "h")],
    .object [("fieldName",.text "y"),("type",.text "function"),
      ("value",.text "\x7b\x7bx\x7d\x7d"),("dataType",.text "rin")]]

/-- A context without extracted data, and a provider that knows the first field. -/
def mail : World where
  store := ⟨#[.object [("x",.text "a-12")],.object [("emailFieldMappings",.cell 2)],
    .list [.cell 3,.cell 4,.cell 5],.object [("fieldName",.text "x"),("type",.text "ai")],
    .object [("fieldName",.text "x"),("type",.text "hardcoded"),("value",.text "h")],
    .object [("fieldName",.text "y"),("type",.text "function"),
      ("value",.text "\x7b\x7bx\x7d\x7d"),("dataType",.text "rin")]]⟩
  ai := some { model := "m", script := { replies := [.completion "\x7b\"x\": \" X \"\x7d"] } }

/-- The reply gives the first field, and the template sees what this field was before. -/
theorem readEmail_fills_mail :
    ∃ (o : Outcome) (w' : World) (e : Item),
      (readEmail { context := .cell 0 } mailStep).exec mail = (.ok o,w') ∧
      AskedOnce mailMappings mail w' ∧
      Context.HoldsFilled (.cell 0) e
        (settled (stepScope { context := .cell 0 } mail) (nextReply mail)
        mailMappings) mail.store w'.store ∧
      Entries.get? (w'.store.entries o.output) "fieldsExtracted" = some (.int 2) ∧
      ∀ j ∈ [.cell 0,e], Entries.get? (w'.store.entries j) "x" = some (.text "X") ∧
        Entries.get? (w'.store.entries j) "y" = some (.text "A12") := by
  have hok : ((readEmail { context := .cell 0 } mailStep).exec mail).1.isOk = true := by
    decide +kernel
  have hx : (settled (stepScope { context := .cell 0 } mail) (nextReply mail) mailMappings "x").bind
      (·.toOption.bind Value.text?) = some "X" := by decide +kernel
  have hy : (settled (stepScope { context := .cell 0 } mail) (nextReply mail) mailMappings "y").bind
      (·.toOption.bind Value.text?) = some "A12" := by decide +kernel
  have hms : ∀ m ∈ mailMappings, IsMapping m := by
    simp only [mailMappings,List.forall_mem_cons,List.not_mem_nil,false_imp_iff,implies_true,
      and_true]
    exact ⟨⟨rfl,"x",rfl,by decide,by decide⟩,⟨rfl,"x",rfl,by decide,by decide⟩,
      ⟨rfl,"y",rfl,by decide,by decide⟩⟩
  rcases h : (readEmail { context := .cell 0 } mailStep).exec mail with ⟨f | o,w'⟩
  · rw [h] at hok
    cases hok
  · have hnone : Context.get mail.store (.cell 0) Context.extractedKey = .null := rfl
    have hconfig : mail.store.read mailStep.config =
        .ok (.object [("emailFieldMappings",.list mailMappings)]) := rfl
    obtain ⟨hasked,⟨e,hfilled⟩,hcount⟩ := readEmail_fills hconfig rfl (List.cons_ne_nil _ _) hms rfl
      (hnone ▸ trivial) h
    obtain ⟨rx,hrx,hx⟩ := Option.bind_eq_some_iff.1 hx
    obtain ⟨a,rfl,hxs⟩ := hfilled.field "x" rx hrx
    obtain ⟨ry,hry,hy⟩ := Option.bind_eq_some_iff.1 hy
    obtain ⟨b,rfl,hys⟩ := hfilled.field "y" ry hry
    obtain rfl : a = .text "X" := by simpa using Value.text?_eq_some.1 hx
    obtain rfl : b = .text "A12" := by simpa using Value.text?_eq_some.1 hy
    exact ⟨o,w',e,rfl,hasked,hfilled,hcount,fun j hj => ⟨hxs j hj,hys j hj⟩⟩

end Steps

end StepGraph
