import StepGraph.Proofs.Spots

/-!
A write at a field path fans out. The parts lead from object to object and from a list into each of
its objects; where they lead to nothing or to a leaf, objects are made. The value stands at the end
of each of these ways, and beside them nothing changes.
-/
namespace StepGraph

open Layer

namespace Value

variable {v v' u x y : Value} {es fs : Entries Value} {items items' : List Value}
  {part next k : String} {path rest : List String} {a p q w : Spot} {n : Nat}

/-- The spots that a field path leads to in a tree. -/
inductive Way : Value → List String → Spot → Prop
  | last (es : Entries Value) (part : String) : Way (.object es) [part] [.entry part]
  /-- A container that is there is gone into. -/
  | entry {es : Entries Value} {u : Value} {part : String} {rest : List String} {w : Spot}
      (there : Entries.get? es part = some u) (container : u.layer.isContainer = true)
      (behind : Way u rest w) : Way (.object es) (part :: rest) (.entry part :: w)
  /-- Where there is none the ways are those of a new object. -/
  | made {es : Entries Value} {part : String} {rest : List String} {w : Spot}
      (bare : ∀ u, Entries.get? es part = some u → u.layer.isContainer = false)
      (behind : Way (.object []) rest w) : Way (.object es) (part :: rest) (.entry part :: w)
  /-- A list branches into its objects. -/
  | item {items : List Value} {fs : Entries Value} {n : Nat} {path : List String} {w : Spot}
      (there : items[n]? = some (.object fs)) (behind : Way (.object fs) path w) :
      Way (.list items) path (.item n :: w)

/-- A tree after a write of a value at all the spots that a field path leads to. -/
structure Fanned (v : Value) (path : List String) (x v' : Value) : Prop where
  /-- The path leads to the same spots as before, -/
  ways : ∀ w, Way v' path w ↔ Way v path w
  /-- and the value stands there. -/
  value : ∀ w, Way v path w → view.at? v' w = some x
  /-- What is neither on a way nor at the end of one or below it stays. -/
  frame : ∀ a, (∀ w, Way v path w → ¬a <+: w ∧ ¬w <+: a) → view.at? v' a = view.at? v a
  /-- An object on a way changes in the entry of the way only, -/
  objects : ∀ p k q fs, Way v path (p ++ .entry k :: q) → view.at? v p = some (.object fs) →
    ∃ y, view.at? v' p = some (.object (Entries.put fs k y))
  /-- a list on a way keeps its length, -/
  lists : ∀ p n q, Way v path (p ++ .item n :: q) → ∃ items items',
    view.at? v p = some (.list items) ∧ view.at? v' p = some (.list items') ∧
      items'.length = items.length
  /-- and where there is neither an object is made that has the entry of the way only. -/
  made : ∀ p k q, Way v path (p ++ .entry k :: q) → (∀ fs, view.at? v p ≠ some (.object fs)) →
    ∃ y, view.at? v' p = some (.object [(k,y)])

theorem way_last_iff : Way (.object es) [part] w ↔ w = [.entry part] := by
  constructor
  · intro h
    cases h with
    | last => rfl
    | entry _ _ behind => cases behind with
      | item there behind => cases behind
    | made _ behind => cases behind
  · rintro rfl
    exact .last es part

/-- Where the ways through an entry go on: in the container that is there, or in a new object. -/
inductive Opens (es : Entries Value) (part : String) : Value → Prop
  | there {u : Value} (hu : Entries.get? es part = some u) (hc : u.layer.isContainer = true) :
      Opens es part u
  | new (bare : ∀ u, Entries.get? es part = some u → u.layer.isContainer = false) :
      Opens es part (.object [])

theorem Opens.way_iff (hu : Opens es part u) : Way (.object es) (part :: next :: rest) w ↔
    ∃ w', w = .entry part :: w' ∧ Way u (next :: rest) w' := by
  constructor
  · intro h
    cases hu with
    | there hu hc =>
      cases h with
      | entry there _ behind =>
        cases hu.symm.trans there
        exact ⟨_,rfl,behind⟩
      | made bare _ => cases (bare u hu).symm.trans hc
    | new bare =>
      cases h with
      | entry there container _ => cases (bare _ there).symm.trans container
      | made _ behind => exact ⟨_,rfl,behind⟩
  · rintro ⟨w',rfl,behind⟩
    cases hu with
    | there hu hc => exact .entry hu hc behind
    | new bare => exact .made bare behind

theorem way_list_iff : Way (.list items) path w ↔
    ∃ n fs w', w = .item n :: w' ∧ items[n]? = some (.object fs) ∧ Way (.object fs) path w' := by
  constructor
  · intro h
    cases h with
    | item there behind => exact ⟨_,_,_,rfl,there,behind⟩
  · rintro ⟨n,fs,w',rfl,there,behind⟩
    exact .item there behind

theorem exists_way (hpath : path ≠ []) : ∃ w, Way (.object []) path w := by
  induction path with
  | nil => exact (hpath rfl).elim
  | cons part rest ih =>
    cases rest with
    | nil => exact ⟨_,.last [] part⟩
    | cons next rest =>
      obtain ⟨w,hw⟩ := ih (List.cons_ne_nil _ _)
      exact ⟨_,.made nofun hw⟩

theorem at?_put_self (es : Entries Value) (k : String) (y : Value) (a : Spot) :
    view.at? (.object (Entries.put es k y)) (.entry k :: a) = view.at? y a := by
  have hpart : (view.layer (.object (Entries.put es k y))).part? (.entry k) = some y :=
    Entries.get?_put_self es k y
  exact View.at?_cons hpart a

theorem at?_entry (hu : Entries.get? es part = some u) (a : Spot) :
    view.at? (.object es) (.entry part :: a) = view.at? u a := by
  have hpart : (view.layer (.object es)).part? (.entry part) = some u := hu
  exact View.at?_cons hpart a

/-- Below the entry there is what is below the place where the ways go on, but for a new object,
which is not there. -/
theorem Opens.at?_or (hu : Opens es part u) (a : Spot) :
    view.at? (.object es) (.entry part :: a) = view.at? u a ∨
      a = [] ∧ u = .object [] ∧ ∀ fs, view.at? (.object es) [.entry part] ≠ some (.object fs) := by
  cases hu with
  | there hu hc => exact .inl (at?_entry hu a)
  | new bare =>
    by_cases ha : a = []
    · refine .inr ⟨ha,rfl,fun fs hfs => ?_⟩
      obtain ⟨u,hu,hat⟩ := View.at?_cons_some hfs
      cases hat
      cases bare _ hu
    · refine .inl (Eq.trans ?_ (View.at?_of_below rfl ha).symm)
      cases hu : Entries.get? es part with
      | none =>
        have hpart : (view.layer (.object es)).part? (.entry part) = none := hu
        exact View.at?_cons_none hpart a
      | some u => exact (at?_entry hu a).trans (View.at?_of_not_container (bare u hu) ha)

theorem at?_item (hx : items[n]? = some u) (a : Spot) :
    view.at? (.list items) (.item n :: a) = view.at? u a := by
  have hpart : (view.layer (.list items)).part? (.item n) = some u := hx
  exact View.at?_cons hpart a

theorem at?_put_ne {b : Branch} (h : b ≠ .entry k) (es : Entries Value) (y : Value) (a : Spot) :
    view.at? (.object (Entries.put es k y)) (b :: a) = view.at? (.object es) (b :: a) := by
  have hpart : (Layer.object (Entries.put es k y)).part? b = (Layer.object es).part? b := by
    cases b with
    | item n => rfl
    | entry k' => exact Entries.get?_put_of_ne (fun he => h (congrArg _ he)) es y
  change ((Layer.object (Entries.put es k y)).part? b).bind _ = ((Layer.object es).part? b).bind _
  rw [hpart]

theorem at?_item_none (hx : items[n]? = none) (a : Spot) :
    view.at? (.list items) (.item n :: a) = none := by
  have hpart : (view.layer (.list items)).part? (.item n) = none := hx
  exact View.at?_cons_none hpart a

namespace Fanned

theorem last (es : Entries Value) (part : String) (x : Value) :
    Fanned (.object es) [part] x (.object (Entries.put es part x)) where
  ways w := way_last_iff.trans way_last_iff.symm
  value w hw := by
    rw [way_last_iff.1 hw]
    exact at?_put_self es part x []
  frame a ha := by
    obtain ⟨hpre,hext⟩ := ha _ (.last es part)
    cases a with
    | nil => exact (hpre List.nil_prefix).elim
    | cons b a =>
      refine at?_put_ne (fun hb => hext ?_) es x a
      rw [hb]
      exact List.cons_prefix_cons.2 ⟨rfl,List.nil_prefix⟩
  objects p k q fs hw hp := by
    rcases Spot.split_cons (way_last_iff.1 hw).symm with ⟨rfl,hk,-⟩ | ⟨p',-,heq⟩
    · cases hk
      cases hp
      exact ⟨x,rfl⟩
    · simp at heq
  lists p n q hw := by
    rcases Spot.split_cons (way_last_iff.1 hw).symm with ⟨rfl,hk,-⟩ | ⟨p',-,heq⟩
    · cases hk
    · simp at heq
  made p k q hw hnone := by
    rcases Spot.split_cons (way_last_iff.1 hw).symm with ⟨rfl,-,-⟩ | ⟨p',-,heq⟩
    · exact (hnone es rfl).elim
    · simp at heq

theorem further (hu : Opens es part u) (h : Fanned u (next :: rest) x y)
    (hy : y.layer.isContainer = true) :
    Fanned (.object es) (part :: next :: rest) x (.object (Entries.put es part y)) where
  ways w := by
    rw [(Opens.there (Entries.get?_put_self es part y) hy).way_iff,hu.way_iff]
    exact exists_congr fun w' => and_congr_right fun _ => h.ways w'
  value w hw := by
    obtain ⟨w',rfl,hbehind⟩ := hu.way_iff.1 hw
    exact (at?_put_self es part y w').trans (h.value w' hbehind)
  frame a ha := by
    have way {w : Spot} (hw : Way u (next :: rest) w) := ha _ (hu.way_iff.2 ⟨w,rfl,hw⟩)
    -- A new object has a way, so its spot is on one.
    have new (hnew : u = .object []) : ∃ w, Way u (next :: rest) w :=
      hnew ▸ exists_way (List.cons_ne_nil next rest)
    cases a with
    | nil =>
      have hnone (w : Spot) (hw : Way u (next :: rest) w) : False := (way hw).1 List.nil_prefix
      obtain rfl : y = u := Option.some.inj (h.frame [] fun w hw => (hnone w hw).elim)
      rcases hu.at?_or [] with hsame | ⟨-,hnew,-⟩
      · obtain ⟨z,hz,hat⟩ := View.at?_cons_some hsame
        cases hat
        obtain ⟨before,after,rfl,hput⟩ := Entries.put_split hz
        rw [hput y]
      · obtain ⟨w,hw⟩ := new hnew
        exact (hnone w hw).elim
    | cons b a =>
      by_cases hb : b = .entry part
      · subst hb
        rw [at?_put_self]
        rcases hu.at?_or a with hsame | ⟨rfl,hnew,-⟩
        · rw [hsame]
          refine h.frame a fun w hw => ?_
          obtain ⟨hpre,hext⟩ := way hw
          rw [List.cons_prefix_cons] at hpre hext
          exact ⟨fun hp => hpre ⟨rfl,hp⟩,fun hp => hext ⟨rfl,hp⟩⟩
        · obtain ⟨w,hw⟩ := new hnew
          exact ((way hw).1 (List.cons_prefix_cons.2 ⟨rfl,List.nil_prefix⟩)).elim
      · exact at?_put_ne hb es y a
  objects p k q fs hw hp := by
    obtain ⟨w,heq,hw⟩ := hu.way_iff.1 hw
    rcases Spot.split_cons heq.symm with ⟨rfl,hk,-⟩ | ⟨p',rfl,rfl⟩
    · cases hk
      cases hp
      exact ⟨y,rfl⟩
    · rw [at?_put_self]
      rcases hu.at?_or p' with hsame | ⟨rfl,-,hnone⟩
      · exact h.objects p' k q fs hw (hsame.symm.trans hp)
      · exact (hnone fs hp).elim
  lists p n q hw := by
    obtain ⟨w,heq,hw⟩ := hu.way_iff.1 hw
    rcases Spot.split_cons heq.symm with ⟨rfl,hk,-⟩ | ⟨p',rfl,rfl⟩
    · cases hk
    · obtain ⟨items,items',hp,hafter,hlength⟩ := h.lists p' n q hw
      rw [at?_put_self]
      rcases hu.at?_or p' with hsame | ⟨rfl,rfl,-⟩
      · exact ⟨items,items',hsame.trans hp,hafter,hlength⟩
      · cases hp
  made p k q hw hnone := by
    obtain ⟨w,heq,hw⟩ := hu.way_iff.1 hw
    rcases Spot.split_cons heq.symm with ⟨rfl,-,-⟩ | ⟨p',rfl,rfl⟩
    · exact (hnone es rfl).elim
    · rw [at?_put_self]
      rcases hu.at?_or p' with hsame | ⟨rfl,rfl,-⟩
      · exact h.made p' k q hw fun fs hp => hnone fs (hsame.trans hp)
      · exact h.objects [] k q [] hw rfl

theorem list {f : Value → Value}
    (h : ∀ fs, .object fs ∈ items → Fanned (.object fs) path x (f (.object fs)))
    (hobject : ∀ fs, .object fs ∈ items → ∃ gs, f (.object fs) = .object gs)
    (hother : ∀ u ∈ items, u.isObject = false → f u = u) :
    Fanned (.list items) path x (.list (items.map f)) := by
  have hitem {n : Nat} {u : Value} (hu : items[n]? = some u) (a : Spot) :
      view.at? (.list (items.map f)) (.item n :: a) = view.at? (f u) a :=
    at?_item (by rw [List.getElem?_map,hu]; rfl) a
  have hfanned {n : Nat} {fs : Entries Value} (hu : items[n]? = some (.object fs)) :
      Fanned (.object fs) path x (f (.object fs)) := h fs (List.mem_of_getElem? hu)
  refine ⟨fun w => ?_,fun w hw => ?_,fun a ha => ?_,fun p k q fs hw hp => ?_,
    fun p n q hw => ?_,fun p k q hw hnone => ?_⟩
  -- the ways through a list are the ways through its objects, each behind the object's place
  · rw [way_list_iff,way_list_iff]
    constructor
    · rintro ⟨n,gs,w,rfl,hn,hw⟩
      obtain ⟨u,hu,hgs⟩ := Option.map_eq_some_iff.1 ((List.getElem?_map ..).symm.trans hn)
      cases u with
      | object fs =>
        rw [← hgs] at hw
        exact ⟨n,fs,w,rfl,hu,((hfanned hu).ways w).1 hw⟩
      | _ => cases (hother _ (List.mem_of_getElem? hu) rfl).symm.trans hgs
    · rintro ⟨n,fs,w,rfl,hu,hw⟩
      obtain ⟨gs,hgs⟩ := hobject fs (List.mem_of_getElem? hu)
      refine ⟨n,gs,w,rfl,by rw [List.getElem?_map,hu,Option.map_some,hgs],?_⟩
      rw [← hgs]
      exact ((hfanned hu).ways w).2 hw
  · obtain ⟨n,fs,w',rfl,hu,hbehind⟩ := way_list_iff.1 hw
    exact (hitem hu w').trans ((hfanned hu).value w' hbehind)
  · have below {n : Nat} {fs : Entries Value} {a : Spot} (hu : items[n]? = some (.object fs))
        (ha : ∀ w, Way (.list items) path w → ¬.item n :: a <+: w ∧ ¬w <+: .item n :: a) :
        view.at? (f (.object fs)) a = view.at? (.object fs) a := by
      refine (hfanned hu).frame a fun w hw => ?_
      obtain ⟨hpre,hext⟩ := ha _ (.item hu hw)
      rw [List.cons_prefix_cons] at hpre hext
      exact ⟨fun hp => hpre ⟨rfl,hp⟩,fun hp => hext ⟨rfl,hp⟩⟩
    cases a with
    | nil =>
      -- a list that no way leads through has no object with a way, so each item is left
      have hsame : ∀ u ∈ items, f u = u := by
        intro u hu
        cases u with
        | object fs =>
          obtain ⟨n,hn⟩ := List.mem_iff_getElem?.1 hu
          exact Option.some.inj (below (a := []) hn fun w hw => ((ha w hw).1 List.nil_prefix).elim)
        | _ => exact hother _ hu rfl
      rw [List.map_congr_left hsame,List.map_id']
    | cons b a =>
      cases b with
      | entry k => rfl
      | item n =>
        cases hu : items[n]? with
        | none =>
          rw [at?_item_none hu,at?_item_none (by rw [List.getElem?_map,hu]; rfl)]
        | some u =>
          rw [hitem hu,at?_item hu]
          cases u with
          | object fs => exact below hu ha
          | _ => rw [hother _ (List.mem_of_getElem? hu) rfl]
  · obtain ⟨n,gs,w,heq,hu,hw⟩ := way_list_iff.1 hw
    rcases Spot.split_cons heq.symm with ⟨rfl,hk,-⟩ | ⟨p',rfl,rfl⟩
    · cases hk
    · rw [at?_item hu] at hp
      rw [hitem hu]
      exact (hfanned hu).objects p' k q fs hw hp
  · obtain ⟨m,gs,w,heq,hu,hw⟩ := way_list_iff.1 hw
    rcases Spot.split_cons heq.symm with ⟨rfl,hk,-⟩ | ⟨p',rfl,rfl⟩
    · exact ⟨items,items.map f,rfl,rfl,List.length_map f⟩
    · rw [at?_item hu,hitem hu]
      exact (hfanned hu).lists p' n q hw
  · obtain ⟨m,gs,w,heq,hu,hw⟩ := way_list_iff.1 hw
    rcases Spot.split_cons heq.symm with ⟨rfl,hk,-⟩ | ⟨p',rfl,rfl⟩
    · cases hk
    · rw [hitem hu]
      exact (hfanned hu).made p' k q hw fun fs hp => hnone fs ((at?_item hu p').trans hp)

end Fanned

theorem fanOut_fanned (path : List String) (hpath : path ≠ []) (es : Entries Value) (x : Value) :
    ∃ es', fanOut path (.object es) x = (.object es',none) ∧
      Fanned (.object es) path x (.object es') := by
  induction path generalizing es with
  | nil => exact (hpath rfl).elim
  | cons part rest ih =>
    cases rest with
    | nil => exact ⟨es.put part x,rfl,.last es part x⟩
    | cons next rest =>
      have ih := ih (List.cons_ne_nil next rest)
      unfold fanOut
      simp only
      split
      · rename_i items hitems
        refine ⟨_,rfl,.further (.there hitems rfl) (.list (fun fs _ => ?_) (fun fs _ => ?_) ?_) rfl⟩
        · obtain ⟨gs,hgs,hfanned⟩ := ih fs
          change Fanned _ _ _ (fanOut (next :: rest) (.object fs) x).1
          rw [hgs]
          exact hfanned
        · obtain ⟨gs,hgs,-⟩ := ih fs
          exact ⟨gs,congrArg Prod.fst hgs⟩
        · exact fun u _ hu => if_neg (by rw [hu]; exact Bool.false_ne_true)
      · rename_i fs hfs
        obtain ⟨gs,hgs,hfanned⟩ := ih fs
        rw [hgs]
        exact ⟨_,rfl,.further (.there hfs rfl) hfanned rfl⟩
      · rename_i hlist hobject
        obtain ⟨gs,hgs,hfanned⟩ := ih []
        rw [hgs]
        refine ⟨_,rfl,.further (.new fun u hu => ?_) hfanned rfl⟩
        cases u with
        | scalar a => rfl
        | list items => exact (hlist items hu).elim
        | object fs => exact (hobject fs hu).elim

theorem fieldPlaces_ne_nil (path : String) : fieldPlaces path ≠ [] := by
  have hsplit (f : Char → Bool) (cs : List Char) : splitAt f cs ≠ [] := by
    cases cs with
    | nil => exact List.cons_ne_nil _ _
    | cons c rest =>
      rw [splitAt]
      split
      · exact List.cons_ne_nil _ _
      · split <;> exact List.cons_ne_nil _ _
  exact mt List.map_eq_nil_iff.1 (hsplit _ _)

end Value

/-- A write of a leaf, or of a container of another document, at a field path of a record that
shares nothing comes to its end, and fans out. Only containers of the record and new ones are
written. -/
theorem Store.setField_fanned {P : Nat → Prop} {s : Store} {id : Nat}
    {es : List (String × Owned)} {p : Owned} (hrecord : Owned.Held P s [.object id es])
    (hplain : (Owned.object id es).GuestFree) (hp : p.ids = []) (hvalue : p.StoredIn s P)
    (path : String) :
    ∃ s' es', s.setField (.cell id) path p.item = (s',none) ∧
      s'.Tells (.cell id) (Owned.object id es').tree ∧
      Value.Fanned (Owned.object id es).tree (Value.fieldPlaces path) p.tree
        (Owned.object id es').tree ∧
      Owned.Update P s [.object id es] s' [.object id es'] := by
  obtain ⟨s',es',hstore,htree,hwritten⟩ :=
    Owned.writes hp (Value.fieldPlaces path) hrecord hvalue (hplain.clear _)
  refine ⟨s',es',hstore,hwritten.update.held.tells List.mem_cons_self,?_,hwritten.update⟩
  obtain ⟨fs,hfs,hfanned⟩ := Value.fanOut_fanned (Value.fieldPlaces path)
    (Value.fieldPlaces_ne_nil path) (es.map fun e => (e.1,e.2.tree)) p.tree
  rw [Owned.tree] at htree
  have hafter : .object fs = (Owned.object id es').tree := congrArg Prod.fst (hfs.symm.trans htree)
  rw [Owned.tree.eq_4 id es,← hafter]
  exact hfanned

def orderTree : Value :=
  .object [("orders",.list [.object [("meta",.text "m")],.text "none",.object []])]

theorem Store.setField_fanned_orders :
    ∃ s' v', (({} : Store).plant orderTree).1.setField (({} : Store).plant orderTree).2
        "orders.meta.unit" (.text "kg") = (s',none) ∧
      s'.Tells (({} : Store).plant orderTree).2 v' ∧
      Value.Fanned orderTree ["orders","meta","unit"] (.text "kg") v' ∧
      Value.view.at? v' [.entry "orders",.item 2,.entry "meta",.entry "unit"] =
        some (.text "kg") := by
  have hregion : ({} : Store).Region fun _ => False := ⟨fun _ h => h.elim,fun _ _ h => h.elim⟩
  have hparts : Value.fieldPlaces "orders.meta.unit" = ["orders","meta","unit"] := by decide
  obtain ⟨o,hitem,htree,hp⟩ := Owned.planted {} hregion orderTree
  rw [← hitem]
  cases o with
  | object id es =>
    obtain ⟨s',es',hset,htells,hfanned,-⟩ := Store.setField_fanned hp.held
      (hp.plain _ List.mem_cons_self) (p := .leaf (.text "kg")) (by rw [Owned.ids]) (.leaf _)
      "orders.meta.unit"
    rw [hparts,htree,Owned.tree] at hfanned
    refine ⟨s',_,hset,htells,hfanned,hfanned.value _ ?_⟩
    have hmade : Value.Way (.object []) ["meta","unit"] [.entry "meta",.entry "unit"] :=
      .made nofun (.last [] "unit")
    exact .entry rfl rfl (.item rfl hmade)
  | leaf a => cases (Owned.tree.eq_1 a).symm.trans htree
  | guest id v => cases hp.plain _ List.mem_cons_self
  | list id os => cases (Owned.tree.eq_3 id os).symm.trans htree

end StepGraph
