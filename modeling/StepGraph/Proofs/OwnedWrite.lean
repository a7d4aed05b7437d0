import Mathlib.Data.List.Flatten
import StepGraph.Proofs.Owned

/-!
Writes into owned trees. What is planted is owned throughout. A write at a field path whose way
leads through no guest changes the tree as the same write changes it where it is a plain tree, and
puts no more than the written value at the end of the path.
-/
namespace StepGraph

namespace Owned

open Store

variable {s s' : Store} {P : Nat → Prop} {o p : Owned} {os : List Owned}

def spread : Owned → List Owned
  | .list _ os => os
  | o => [o]

def onward (part : String) : Owned → List Owned
  | .object _ es => ((Entries.get? es part).map spread).getD []
  | _ => []

def isGuest : Owned → Bool
  | .guest _ _ => true
  | _ => false

/-- No guest stands on the way of a write. -/
def Clear : List String → Owned → Prop
  | [], _ => True
  | part :: rest, o => o.isGuest = false ∧ ∀ x ∈ o.onward part, Clear rest x

def Beneath (path further : List String) : Prop := ∃ next rest, further = path ++ next :: rest

theorem beneath_cons {part : String} {path further : List String} :
    Beneath (part :: path) (part :: further) ↔ Beneath path further := by
  simp only [Beneath,List.cons_append,List.cons.injEq,true_and]

theorem clear_leaf (path : List String) (a : Scalar) : Clear path (.leaf a) := by
  cases path with
  | nil => trivial
  | cons part rest => exact ⟨rfl,fun x hx => by cases hx⟩

inductive GuestFree : Owned → Prop
  | leaf (a : Scalar) : GuestFree (.leaf a)
  | list {id : Nat} {os : List Owned} (items : ∀ o ∈ os, GuestFree o) : GuestFree (.list id os)
  | object {id : Nat} {es : List (String × Owned)} (entries : ∀ o ∈ roots es, GuestFree o) :
      GuestFree (.object id es)

theorem GuestFree.onward (h : GuestFree o) (part : String) : ∀ x ∈ o.onward part, GuestFree x := by
  cases h with
  | leaf a => simp [Owned.onward]
  | list items => simp [Owned.onward]
  | object entries =>
    intro x hx
    simp only [Owned.onward] at hx
    cases he : Entries.get? _ part with
    | none =>
      rw [he] at hx
      cases hx
    | some o =>
      rw [he] at hx
      have ho : GuestFree o := entries o (List.mem_map_of_mem (Entries.mem_of_get? he))
      cases ho with
      | list items => exact items x hx
      | leaf a =>
        rw [List.mem_singleton.1 hx]
        exact .leaf a
      | object entries =>
        rw [List.mem_singleton.1 hx]
        exact .object entries

theorem GuestFree.clear (h : GuestFree o) (path : List String) : Clear path o := by
  induction path generalizing o with
  | nil => trivial
  | cons part rest ih => exact ⟨by cases h <;> rfl,fun x hx => ih (h.onward part x hx)⟩

theorem GuestFree.item_in (h : GuestFree o) : o.item.In (· ∈ o.ids) := by
  cases h with
  | leaf a => trivial
  | list items =>
    change _ ∈ ids _
    rw [ids]
    exact List.mem_cons_self
  | object entries =>
    change _ ∈ ids _
    rw [ids]
    exact List.mem_cons_self

theorem GuestFree.stands {Q : Nat → Prop} (h : GuestFree o) (hs : o.StoredIn s P) :
    o.StoredIn s Q := by
  induction hs with
  | leaf a => exact .leaf a
  | guest tells => cases h
  | list cell _ ih =>
    cases h with
    | list items => exact .list cell fun o ho => ih o ho (items o ho)
  | object cell _ ih =>
    cases h with
    | object entries => exact .object cell fun o ho => ih o ho (entries o ho)

theorem GuestFree.closed (h : GuestFree o) (hs : o.StoredIn s P) {id : Nat} {c : Cell}
    (hid : id ∈ o.ids)
    (hc : s.cells[id]? = some c) : ∀ i ∈ c.layer.below, i.In (· ∈ o.ids) := by
  -- A part stands among the own containers of one of the trees below the root.
  have part {o : Owned} {root : Nat} {os : List Owned} (hids : o.ids = root :: os.flatMap ids)
      {x : Owned} (hx : x ∈ os) {i : Item} (hi : i.In (· ∈ x.ids)) : i.In (· ∈ o.ids) := by
    rw [hids]
    exact hi.mono fun id hid => List.mem_cons_of_mem _ (List.mem_flatMap_of_mem hx hid)
  induction hs with
  | leaf a => simp [ids] at hid
  | guest tells => cases h
  | @list root os cell _ ih =>
    cases h with
    | list items =>
      have hids : (Owned.list root os).ids = root :: os.flatMap ids := by rw [ids]
      rw [hids] at hid
      rcases List.mem_cons.1 hid with rfl | hid
      · cases cell.symm.trans hc
        exact List.forall_mem_map.2 fun x hx => part hids hx (items x hx).item_in
      · obtain ⟨x,hx,hid⟩ := List.mem_flatMap.1 hid
        exact fun i hi => part hids hx (ih x hx (items x hx) hid i hi)
  | @object root es cell _ ih =>
    cases h with
    | object entries =>
      have hids := ids_object root es
      rw [hids] at hid
      rcases List.mem_cons.1 hid with rfl | hid
      · cases cell.symm.trans hc
        refine List.forall_mem_map.2 (List.forall_mem_map.2 fun e he => ?_)
        have he : e.2 ∈ roots es := List.mem_map_of_mem he
        exact part hids he (entries e.2 he).item_in
      · obtain ⟨x,hx,hid⟩ := List.mem_flatMap.1 hid
        exact fun i hi => part hids hx (ih x hx (entries x hx) hid i hi)

theorem Held.beside {Q : Nat → Prop} {os : List Owned} (h : Held P s os) (ho : ∀ o ∈ os, o.GuestFree)
    (hQ : s.Region Q) (hd : ∀ id ∈ os.flatMap ids, ¬Q id) : Held Q s os where
  region := hQ
  stands o hm := (ho o hm).stands (h.stands o hm)
  nodup := h.nodup
  own := hd

structure Planted (P : Nat → Prop) (s s' : Store) (os : List Owned) : Prop where
  held : Held P s' os
  fresh : ∀ id ∈ os.flatMap ids, s.cells.size ≤ id
  plain : ∀ o ∈ os, GuestFree o

namespace Planted

theorem nil (hP : s.Region P) : Planted P s s [] :=
  ⟨⟨hP,by simp,by simp,by simp⟩,by simp,by simp⟩

theorem leaf (hP : s.Region P) (a : Scalar) : Planted P s s [.leaf a] where
  held := ⟨hP,List.forall_mem_singleton.2 (.leaf a),by simp [ids],by simp [ids]⟩
  fresh := by simp [ids]
  plain := List.forall_mem_singleton.2 (.leaf a)

theorem region {os : List Owned} (h : Planted P s s' os) :
    s'.Region (· ∈ os.flatMap ids) where
  bounded := h.held.lt
  closed id c hid hc i hi := by
    obtain ⟨o,ho,hid⟩ := List.mem_flatMap.1 hid
    have hin := (h.plain o ho).closed (h.held.stands o ho) hid hc i hi
    exact hin.mono fun id hid => List.mem_flatMap_of_mem ho hid

theorem tells {os : List Owned} (h : Planted P s s' os) (ho : o ∈ os) :
    s'.TellsIn (· ∈ os.flatMap ids) o.item o.tree :=
  ⟨(h.plain o ho).item_in.mono fun _ hid => List.mem_flatMap_of_mem ho hid,h.held.tells ho⟩

theorem append {s₁ : Store} {os os' : List Owned} (h : Planted P s s₁ os)
    (hs : s.Grows s₁) (hg : s₁.Grows s') (h' : Planted P s₁ s' os') :
    Planted P s s' (os ++ os') where
  held := (h.held.grows hg).append h'.held fun id hid hid' =>
    Nat.not_lt.2 (h'.fresh id hid') (h.held.lt id hid)
  fresh id hid := by
    rw [List.flatMap_append] at hid
    exact (List.mem_append.1 hid).elim (h.fresh id)
      fun hm => Nat.le_trans hs.size_le (h'.fresh id hm)
  plain o ho := (List.mem_append.1 ho).elim (h.plain o) (h'.plain o)

theorem alloc {os : List Owned} {o : Owned} {c : Cell} (h : Planted P s s' os)
    (hs : s.Grows s') (hids : o.ids = s'.cells.size :: os.flatMap ids) (hplain : GuestFree o)
    (hstands : (s'.alloc c).1.cells[s'.cells.size]? = some c → Held P (s'.alloc c).1 os →
      o.StoredIn (s'.alloc c).1 P) : Planted P s (s'.alloc c).1 [o] := by
  have hparts := h.held.grows (alloc_grows s' c)
  have hflat : [o].flatMap ids = s'.cells.size :: os.flatMap ids := by
    rw [List.flatMap_singleton,hids]
  refine ⟨⟨hparts.region,?_,?_,?_⟩,?_,?_⟩
  · exact List.forall_mem_singleton.2 (hstands (alloc_cell s' c) hparts)
  · rw [hflat]
    exact List.nodup_cons.2 ⟨fun hm => Nat.lt_irrefl _ (h.held.lt _ hm),h.held.nodup⟩
  · rw [hflat]
    have hnew : ¬P s'.cells.size := fun hP => Nat.lt_irrefl _ (h.held.region.bounded _ hP)
    exact List.forall_mem_cons.2 ⟨hnew,h.held.own⟩
  · rw [hflat]
    exact List.forall_mem_cons.2 ⟨hs.size_le,h.fresh⟩
  · exact List.forall_mem_singleton.2 hplain

end Planted

mutual

theorem planted (s : Store) (hP : s.Region P) : ∀ v : Value, ∃ o : Owned,
    o.item = (s.plant v).2 ∧ o.tree = v ∧ Planted P s (s.plant v).1 [o]
  | .scalar a => ⟨.leaf a,rfl,by rw [tree],.leaf hP a⟩
  | .list xs => by
    obtain ⟨os,hitems,htrees,hp⟩ := planted_items s hP xs
    refine ⟨.list (s.plantItems xs).1.cells.size os,rfl,by rw [tree,htrees],?_⟩
    refine hp.alloc (plantItems_grows s xs) (by rw [ids]) (.list hp.plain) fun hc hh => ?_
    exact .list (by rw [hitems]; exact hc) hh.stands
  | .object es => by
    obtain ⟨fs,hitems,htrees,hp⟩ := planted_entries s hP es
    refine ⟨.object (s.plantEntries es).1.cells.size fs,rfl,by rw [tree,htrees],?_⟩
    refine hp.alloc (plantEntries_grows s es) (ids_object _ _) (.object hp.plain) fun hc hh => ?_
    exact .object (by rw [hitems]; exact hc) hh.stands

theorem planted_items (s : Store) (hP : s.Region P) : ∀ xs : List Value,
    ∃ os : List Owned, os.map item = (s.plantItems xs).2 ∧ os.map tree = xs ∧
      Planted P s (s.plantItems xs).1 os
  | [] => ⟨[],rfl,rfl,.nil hP⟩
  | x :: rest => by
    have hs := plant_grows s x
    obtain ⟨o,hitem,htree,hp⟩ := planted s hP x
    obtain ⟨os,hitems,htrees,hps⟩ := planted_items (s.plant x).1 (hP.of_agrees (hP.agrees hs)) rest
    refine ⟨o :: os,?_,by rw [List.map_cons,htree,htrees],?_⟩
    · rw [List.map_cons,hitem,hitems]
      rfl
    · exact hp.append hs (plantItems_grows _ rest) hps

theorem planted_entries (s : Store) (hP : s.Region P) : ∀ es : List (String × Value),
    ∃ fs : List (String × Owned), (fs.map fun e => (e.1,e.2.item)) = (s.plantEntries es).2 ∧
      (fs.map fun e => (e.1,e.2.tree)) = es ∧ Planted P s (s.plantEntries es).1 (roots fs)
  | [] => ⟨[],rfl,rfl,.nil hP⟩
  | (k,x) :: rest => by
    have hs := plant_grows s x
    obtain ⟨o,hitem,htree,hp⟩ := planted s hP x
    obtain ⟨fs,hitems,htrees,hps⟩ :=
      planted_entries (s.plant x).1 (hP.of_agrees (hP.agrees hs)) rest
    refine ⟨(k,o) :: fs,?_,by rw [List.map_cons,htree,htrees],?_⟩
    · rw [List.map_cons,hitem,hitems]
      rfl
    · exact hp.append hs (plantEntries_grows _ rest) hps

end

variable {id : Nat} {es es' : List (String × Owned)} {os' : List Owned}

theorem flatMap_root (h : o.ids = id :: os.flatMap ids) :
    [o].flatMap ids = id :: os.flatMap ids := by
  rw [List.flatMap_singleton,h]

theorem held_root {cell : Prop} (hids : o.ids = id :: os.flatMap ids)
    (hstands : o.StoredIn s P ↔ cell ∧ ∀ x ∈ os, x.StoredIn s P) :
    Held P s [o] ↔ cell ∧ ¬P id ∧ id ∉ os.flatMap ids ∧ Held P s os := by
  have hflat := flatMap_root hids
  constructor
  · intro h
    have hnodup := h.nodup
    have hown := h.own
    rw [hflat] at hnodup hown
    obtain ⟨hid,hnodup⟩ := List.nodup_cons.1 hnodup
    obtain ⟨hn,hown⟩ := List.forall_mem_cons.1 hown
    obtain ⟨hcell,hparts⟩ := hstands.1 (h.stands o List.mem_cons_self)
    exact ⟨hcell,hn,hid,h.region,hparts,hnodup,hown⟩
  · rintro ⟨hcell,hn,hid,h⟩
    refine ⟨h.region,List.forall_mem_singleton.2 (hstands.2 ⟨hcell,h.stands⟩),?_,?_⟩
    · rw [hflat]
      exact List.nodup_cons.2 ⟨hid,h.nodup⟩
    · rw [hflat]
      exact List.forall_mem_cons.2 ⟨hn,h.own⟩

theorem held_list : Held P s [.list id os] ↔
    s.cells[id]? = some (.list (os.map item)) ∧ ¬P id ∧ id ∉ os.flatMap ids ∧ Held P s os := by
  refine held_root (by rw [ids]) ⟨fun h => ?_,fun h => .list h.1 h.2⟩
  cases h with
  | list cell items => exact ⟨cell,items⟩

theorem held_object : Held P s [.object id es] ↔
    s.cells[id]? = some (.object (es.map fun e => (e.1,e.2.item))) ∧ ¬P id ∧
      id ∉ (roots es).flatMap ids ∧ Held P s (roots es) := by
  refine held_root (ids_object id es) ⟨fun h => ?_,fun h => .object h.1 h.2⟩
  cases h with
  | object cell entries => exact ⟨cell,entries⟩

namespace Update

theorem root {o' : Owned} (hids : o.ids = id :: os.flatMap ids)
    (hids' : o'.ids = id :: os'.flatMap ids) (hlt : id < s.cells.size)
    (hid : id ∉ os.flatMap ids) (h : Update P s os s' os')
    (hheld : s'.cells[id]? = s.cells[id]? → id ∉ os'.flatMap ids → Held P s' [o']) :
    Update P s [o] s' [o'] := by
  have hid' : id ∉ os'.flatMap ids := fun hm =>
    (h.fresh id hm).elim hid fun hle => Nat.not_lt.2 hle hlt
  refine ⟨h.size_le,?_,?_,hheld (h.outside id hlt hid) hid'⟩
  · rw [flatMap_root hids]
    exact fun id' hlt' hm => h.outside id' hlt' fun hm' => hm (List.mem_cons_of_mem _ hm')
  · rw [flatMap_root hids,flatMap_root hids']
    refine List.forall_mem_cons.2 ⟨.inl List.mem_cons_self,fun id' hm => ?_⟩
    exact (h.fresh id' hm).imp_left (List.mem_cons_of_mem _)

theorem list (hall : Held P s [.list id os]) (h : Update P s os s' os')
    (hitems : os'.map item = os.map item) : Update P s [.list id os] s' [.list id os'] := by
  obtain ⟨hcell,hn,hid,-⟩ := held_list.1 hall
  refine h.root (by rw [ids]) (by rw [ids]) (Array.getElem?_eq_some_iff.1 hcell).1 hid
    fun hsame hid' => held_list.2 ⟨?_,hn,hid',h.held⟩
  rw [hsame,hcell,hitems]

theorem object (hall : Held P s [.object id es]) (h : Update P s (roots es) s' (roots es'))
    (hitems : (es'.map fun e => (e.1,e.2.item)) = es.map fun e => (e.1,e.2.item)) :
    Update P s [.object id es] s' [.object id es'] := by
  obtain ⟨hcell,hn,hid,-⟩ := held_object.1 hall
  refine h.root (ids_object id es) (ids_object id es') (Array.getElem?_eq_some_iff.1 hcell).1 hid
    fun hsame hid' => held_object.2 ⟨?_,hn,hid',h.held⟩
  rw [hsame,hcell,hitems]

theorem entry {part : String} {o' : Owned} (hall : Held P s [.object id es])
    (ho : Entries.get? es part = some o) (h : Update P s [o] s' [o']) (hitem : o'.item = o.item) :
    Update P s [.object id es] s' [.object id (Entries.put es part o')] := by
  obtain ⟨-,-,-,hparts⟩ := held_object.1 hall
  obtain ⟨before,after,rfl,hput⟩ := Entries.put_split ho
  rw [hput o']
  refine object hall ?_ (by simp only [List.map_append,List.map_cons,hitem])
  have hroots (x : Owned) : roots (before ++ (part,x) :: after) =
      roots before ++ [x] ++ roots after := by
    simp only [roots,List.map_append,List.map_cons,List.append_assoc,List.singleton_append]
  rw [hroots] at hparts ⊢
  rw [hroots]
  exact among hparts h

end Update

theorem Held.subperm (h : Held P s os) (hs : os'.Subperm os) : Held P s os' := by
  obtain ⟨l,hperm,hsub⟩ := hs
  have hflat := hsub.flatMap ids
  have hids := hperm.flatMap_right ids
  refine ⟨h.region,fun o ho => h.stands o (hsub.subset (hperm.mem_iff.2 ho)),?_,fun id hid => ?_⟩
  · exact hids.nodup_iff.1 (h.nodup.sublist hflat)
  · exact h.own id (hflat.subset (hids.mem_iff.2 hid))

theorem Held.entry {part : String} (h : Held P s [.object id es])
    (ho : Entries.get? es part = some o) : Held P s [o] := by
  refine (held_object.1 h).2.2.2.subperm (List.singleton_subperm_iff.2 ?_)
  exact List.mem_map_of_mem (Entries.mem_of_get? ho)

theorem roots_put (part : String) : (roots (Entries.put es part p)).Subperm (roots es ++ [p]) := by
  induction es with
  | nil => exact .refl _
  | cons e es ih =>
    unfold Entries.put
    split
    · exact (List.perm_append_singleton p (roots es)).symm.subperm.trans .cons_self
    · exact (List.subperm_cons e.2).2 ih

theorem Update.put (part : String) (h : Held P s ([.object id es] ++ [p])) :
    Update P s ([.object id es] ++ [p])
      (s.setCell id (.object (Entries.put (es.map fun e => (e.1,e.2.item)) part p.item)))
      [.object id (Entries.put es part p)] := by
  obtain ⟨hcell,hn,hid,hparts⟩ := held_object.1 h.left
  have hlt := (Array.getElem?_eq_some_iff.1 hcell).1
  have hflat := flatMap_root (ids_object id es)
  have hp : id ∉ [p].flatMap ids := fun hm =>
    h.apart id (by rw [hflat]; exact List.mem_cons_self) hm
  -- The parts that the object has behind the write are among those it had and the new one.
  have hall : Held P s (roots es ++ [p]) := hparts.append h.right fun id' hm =>
    h.apart id' (by rw [hflat]; exact List.mem_cons_of_mem _ hm)
  have hsub : (roots (Entries.put es part p)).Subperm (roots es ++ [p]) := roots_put part
  have hput := hall.subperm hsub
  have hmem (id' : Nat) (hm : id' ∈ (roots (Entries.put es part p)).flatMap ids) :
      id' ∈ (roots es ++ [p]).flatMap ids := by
    obtain ⟨o,ho,hm⟩ := List.mem_flatMap.1 hm
    exact List.mem_flatMap_of_mem (hsub.subset ho) hm
  have hidput : id ∉ (roots (Entries.put es part p)).flatMap ids := fun hm => by
    have hm := hmem id hm
    rw [List.flatMap_append] at hm
    exact (List.mem_append.1 hm).elim hid hp
  have hother {id' : Nat} (hne : id' ≠ id) (c : Cell) :
      (s.setCell id c).cells[id']? = s.cells[id']? := by
    simp only [setCell,Array.getElem?_setIfInBounds]
    rw [if_neg (Ne.symm hne)]
  have hsize (c : Cell) : (s.setCell id c).cells.size = s.cells.size := by simp [setCell]
  refine ⟨Nat.le_of_eq (hsize _).symm,fun id' _ hm => hother (fun he => hm ?_) _,
    fun id' hm => .inl ?_,held_object.2 ⟨?_,hn,hidput,?_⟩⟩
  · rw [List.flatMap_append,hflat,he]
    exact List.mem_cons_self
  · rw [flatMap_root (ids_object id _)] at hm
    rw [List.flatMap_append,hflat]
    rcases List.mem_cons.1 hm with rfl | hm
    · exact List.mem_cons_self
    · have hm := hmem id' hm
      rw [List.flatMap_append] at hm
      exact List.mem_cons_of_mem _ hm
  · simp only [setCell,Array.getElem?_setIfInBounds,if_pos hlt,if_true,Entries.put_map item]
  · have hguests : ∀ id', P id' → id' ≠ id := fun id' hid' he => hn (he ▸ hid')
    exact hput.frame (fun id' hid' => hother (hguests id' hid') _)
      fun id' hm => hother (fun he => hidput (he ▸ hm)) _

/-- What hangs at the end of a path does not stand in the way of a further path. -/
def OutOfWay (path : List String) (p : Owned) (further : List String) : Prop :=
  Beneath path further → p.isGuest = false

theorem outOfWay_cons {part : String} {path further : List String} :
    OutOfWay (part :: path) p (part :: further) ↔ OutOfWay path p further := by
  rw [OutOfWay,OutOfWay,beneath_cons]

/-- Trees became others, with the same roots, by a write of a value at a path: ways that were clear
and do not go on behind the value are clear. -/
structure LandedWrite (P : Nat → Prop) (path : List String) (p : Owned) (s : Store) (os : List Owned)
    (s' : Store) (os' : List Owned) : Prop where
  update : Update P s os s' os'
  items : os'.map item = os.map item
  clear : ∀ further, OutOfWay path p further → (∀ o ∈ os, Clear further o) →
    ∀ o ∈ os', Clear further o

theorem LandedWrite.refl (path : List String) (h : Held P s os) : LandedWrite P path p s os s os :=
  ⟨.refl h,rfl,fun _ _ hc => hc⟩

theorem LandedWrite.cons {path : List String} {s'' : Store} {os₂ : List Owned} {o₁ : Owned}
    (hall : Held P s (o :: os)) (h : LandedWrite P path p s [o] s' [o₁])
    (h' : LandedWrite P path p s' os s'' os₂) :
    LandedWrite P path p s (o :: os) s'' (o₁ :: os₂) := by
  refine ⟨.cons hall h.update h'.update,?_,fun further hf hc => ?_⟩
  · have hitem : [o₁].map item = [o].map item := h.items
    have hitem : o₁.item = o.item := List.head_eq_of_cons_eq hitem
    rw [List.map_cons,List.map_cons,h'.items,hitem]
  · obtain ⟨ho,hos⟩ := List.forall_mem_cons.1 hc
    have hfirst := h.clear further hf (List.forall_mem_singleton.2 ho)
    exact List.forall_mem_cons.2 ⟨List.forall_mem_singleton.1 hfirst,h'.clear further hf hos⟩

theorem clear_put {part : String} {further : List String} (h : Clear further (.object id es))
    (hp : ∀ rest, further = part :: rest → ∀ x ∈ p.spread, Clear rest x) :
    Clear further (.object id (Entries.put es part p)) := by
  cases further with
  | nil => trivial
  | cons next rest =>
    refine ⟨rfl,fun x hx => ?_⟩
    by_cases hn : next = part
    · subst hn
      rw [onward,Entries.get?_put_self] at hx
      exact hp rest rfl x hx
    · rw [onward,Entries.get?_put_of_ne hn] at hx
      exact h.2 x hx

theorem layer_object (h : Held P s [.object id es]) :
    s.layer (.cell id) = .object (es.map fun e => (e.1,e.2.item)) := by
  simp only [Store.layer,(held_object.1 h).1,Cell.layer]

theorem assign_landed (hp : p.ids = []) (hs : p.StoredIn s P) (part : String)
    (h : Held P s [.object id es]) :
    ∃ s', s.assign (.cell id) part p.item = (s',none) ∧
      LandedWrite P [part] p s [.object id es] s' [.object id (Entries.put es part p)] := by
  have hflat : [p].flatMap ids = [] := by rw [List.flatMap_singleton,hp]
  have hsingle : Held P s [p] := by
    refine ⟨h.region,List.forall_mem_singleton.2 hs,?_,?_⟩ <;> rw [hflat] <;> simp
  have hall : Held P s ([.object id es] ++ [p]) :=
    h.append hsingle fun id' _ => by rw [hflat]; exact List.not_mem_nil
  have hids : ([Owned.object id es] ++ [p]).flatMap ids = [Owned.object id es].flatMap ids := by
    rw [List.flatMap_append,hflat,List.append_nil]
  obtain ⟨hsize,houtside,hfresh,hheld⟩ := Update.put part hall
  rw [hids] at houtside hfresh
  refine ⟨_,?_,⟨hsize,houtside,hfresh,hheld⟩,rfl,fun further hf hc => ?_⟩
  · simp only [assign,layer_object h,Layer.assign,setLayer]
  · rw [List.forall_mem_singleton] at hc ⊢
    refine clear_put hc fun rest hrest x hx => ?_
    subst hrest
    cases p with
    | leaf a =>
      rw [List.mem_singleton.1 hx]
      exact clear_leaf rest a
    | guest id v =>
      rw [List.mem_singleton.1 hx]
      cases rest with
      | nil => trivial
      | cons next rest => cases hf ⟨next,rest,rfl⟩
    | list id os =>
      rw [ids] at hp
      cases hp
    | object id es =>
      rw [ids] at hp
      cases hp

theorem LandedWrite.entry {part : String} {path : List String} {o' : Owned}
    (hall : Held P s [.object id es]) (ho : Entries.get? es part = some o)
    (h : Update P s [o] s' [o']) (hitem : o'.item = o.item)
    (hc : ∀ further, OutOfWay path p further → (∀ x ∈ o.spread, Clear further x) →
      ∀ x ∈ o'.spread, Clear further x) :
    LandedWrite P (part :: path) p s [.object id es] s' [.object id (Entries.put es part o')] := by
  refine ⟨.entry hall ho h hitem,rfl,fun further hf hclear => ?_⟩
  rw [List.forall_mem_singleton] at hclear ⊢
  refine clear_put hclear fun rest hrest => ?_
  subst hrest
  refine hc rest (outOfWay_cons.1 hf) ?_
  have hon := hclear.2
  rw [onward,ho] at hon
  exact hon

theorem isObject_item (h : Held P s [o]) (ho : o.isGuest = false) :
    s.isObject o.item = o.tree.isObject := by
  cases o with
  | leaf a =>
    rw [tree]
    rfl
  | guest id v => cases ho
  | list id os =>
    have hl : s.view.layer (.cell id) = .list (os.map item) := by
      simp only [view,Store.layer,(held_list.1 h).1,Cell.layer]
    simp only [isObject,View.isObject,item,hl,tree]
    rfl
  | object id es =>
    have hl : s.view.layer (.cell id) = .object (es.map fun e => (e.1,e.2.item)) := layer_object h
    simp only [isObject,View.isObject,item,hl,tree]
    rfl

def Lands (P : Nat → Prop) (p : Owned) (path : List String) (s : Store) (id : Nat)
    (es : List (String × Owned)) : Prop :=
  ∃ s' es', Store.fanOut path s (.cell id) p.item = (s',none) ∧
    Value.fanOut path (Owned.object id es).tree p.tree = ((Owned.object id es').tree,none) ∧
    LandedWrite P path p s [.object id es] s' [.object id es']

/-- Writes at a path land wherever their way is clear. -/
def LandsWhereClear (P : Nat → Prop) (p : Owned) (path : List String) : Prop :=
  ∀ {s : Store} {id : Nat} {es : List (String × Owned)}, Held P s [.object id es] →
    p.StoredIn s P → Clear path (.object id es) → Lands P p path s id es

theorem LandsWhereClear.branch {path : List String} (hw : LandsWhereClear P p path)
    (hpath : path ≠ [])
    (hp : p.ids = []) (h : Held P s os) (hs : p.StoredIn s P) (hc : ∀ o ∈ os, Clear path o) :
    ∃ s' os',
      (os.map item).foldl
        (fun s j => if s.isObject j then (Store.fanOut path s j p.item).1 else s) s = s' ∧
      os'.map tree = (os.map tree).map (fun v =>
        if v.isObject then (Value.fanOut path v p.tree).1 else v) ∧
      LandedWrite P path p s os s' os' := by
  induction os generalizing s with
  | nil => exact ⟨s,[],rfl,rfl,.refl path h⟩
  | cons o os ih =>
    obtain ⟨hco,hcos⟩ := List.forall_mem_cons.1 hc
    have hone : Held P s [o] := (show Held P s ([o] ++ os) from h).left
    have hguest : o.isGuest = false := by
      obtain ⟨part,rest,rfl⟩ := List.exists_cons_of_ne_nil hpath
      exact hco.1
    -- the first item is written below if it is an object, and the others after it
    have first : ∃ s₁ o₁, (if s.isObject o.item then (Store.fanOut path s o.item p.item).1 else s) =
        s₁ ∧ o₁.tree = (if o.tree.isObject then (Value.fanOut path o.tree p.tree).1 else o.tree) ∧
        LandedWrite P path p s [o] s₁ [o₁] := by
      rw [isObject_item hone hguest]
      cases ho : o.tree.isObject with
      | false => exact ⟨s,o,rfl,rfl,.refl path hone⟩
      | true =>
        cases o with
        | object id es =>
          obtain ⟨s₁,es₁,hstore,htree,hw⟩ := hw hone hs hco
          exact ⟨s₁,.object id es₁,congrArg Prod.fst hstore,(congrArg Prod.fst htree).symm,hw⟩
        | guest id v => cases hguest
        | leaf a =>
          rw [tree] at ho
          cases ho
        | list id os =>
          rw [tree] at ho
          cases ho
    obtain ⟨s₁,o₁,hstore,htree,hwritten⟩ := first
    have hs₁ : p.StoredIn s₁ P := hs.frame hone.region (hwritten.update.guests hone)
      (by simp [hp])
    obtain ⟨s₂,os₂,hstores,htrees,hrest⟩ := ih (hwritten.update.rest h) hs₁ hcos
    refine ⟨s₂,o₁ :: os₂,?_,?_,.cons h hwritten hrest⟩
    · rw [List.map_cons,List.foldl_cons,hstore,hstores]
    · rw [List.map_cons,htree,htrees]
      rfl

theorem Update.planted (h : Held P s os) (hg : s.Grows s') (hp : Planted P s s' os') :
    Update P s os s' (os ++ os') where
  size_le := hg.size_le
  outside id hlt _ := by rw [hg id _ (Array.getElem?_eq_getElem hlt),Array.getElem?_eq_getElem hlt]
  fresh id hid := by
    rw [List.flatMap_append] at hid
    exact (List.mem_append.1 hid).imp_right (hp.fresh id)
  held := (h.grows hg).append hp.held fun id hid hid' =>
    Nat.not_lt.2 (hp.fresh id hid') (h.lt id hid)

theorem put_empty (part : String) (h : Held P s [.object id es]) :
    Update P s [.object id es]
      ((s.alloc (.object [])).1.putField (.cell id) part (s.alloc (.object [])).2)
      [.object id (Entries.put es part (.object s.cells.size []))] := by
  have hg := alloc_grows s (.object [])
  have empty : Planted P s (s.alloc (.object [])).1 [.object s.cells.size []] :=
    Planted.alloc (.nil h.region) (refl_of Grows s) (ids_object _ _) (.object (by simp))
      fun hc hh => .object hc hh.stands
  have both := Update.planted h hg empty
  have hput := Update.put part both.held
  rw [putField,layer_object both.held.left]
  exact both.trans hput

theorem tree_put (id : Nat) (es : List (String × Owned)) (part : String) (o : Owned) :
    (object id (Entries.put es part o)).tree =
      .object (Entries.put (es.map fun e => (e.1,e.2.tree)) part o.tree) := by
  rw [tree,Entries.put_map tree]

variable {part next : String} {rest : List String}

theorem LandsWhereClear.made (hw : LandsWhereClear P p (next :: rest)) (hp : p.ids = [])
    (h : Held P s [.object id es]) (hs : p.StoredIn s P)
    (hnone : ∀ o, Entries.get? es part = some o → ∃ a, o = .leaf a) :
    Lands P p (part :: next :: rest) s id es := by
  -- an empty object is put first, and the write goes on below it as below any other
  have hput := put_empty part h
  revert hput
  generalize hmade : (s.alloc (.object [])).1.putField (.cell id) part (s.alloc (.object [])).2 = s₁
  intro hput
  have hget := Entries.get?_put_self es part (Owned.object s.cells.size [])
  have hs₁ : p.StoredIn s₁ P := hs.frame h.region (hput.guests h) (by simp [hp])
  have hnew := hput.held.entry hget
  have hplain : GuestFree (.object s.cells.size []) := .object (by simp)
  obtain ⟨s₂,fs,hstore,htree,hwritten⟩ := hw hnew hs₁ (hplain.clear _)
  have hbelow := Update.entry hput.held hget hwritten.update rfl
  rw [Entries.put_put] at hbelow
  refine ⟨s₂,_,?_,?_,hput.trans hbelow,rfl,fun further hf hclear => ?_⟩
  · have hscalar : ∃ a, s.layer (.ofOption ((Entries.get? es part).map item)) = .scalar a := by
      cases ho : Entries.get? es part with
      | none => exact ⟨.null,rfl⟩
      | some o =>
        obtain ⟨a,rfl⟩ := hnone o ho
        exact ⟨a,rfl⟩
    obtain ⟨a,hscalar⟩ := hscalar
    unfold Store.fanOut
    rw [layer_object h]
    simp only [Entries.get?_map,hscalar,hmade]
    exact hstore
  · have hscalar : (Entries.get? es part).map tree = none ∨
        ∃ a, (Entries.get? es part).map tree = some (.scalar a) := by
      cases ho : Entries.get? es part with
      | none => exact .inl rfl
      | some o =>
        obtain ⟨a,rfl⟩ := hnone o ho
        exact .inr ⟨a,by rw [Option.map_some,tree]⟩
    rw [tree] at htree
    rw [tree]
    unfold Value.fanOut
    rcases hscalar with hscalar | ⟨a,hscalar⟩
    all_goals
      simp only [Entries.get?_map,hscalar]
      simp only [List.map_nil] at htree
      rw [htree,tree_put]
  · rw [List.forall_mem_singleton] at hclear ⊢
    refine clear_put hclear fun rest' hrest => ?_
    subst hrest
    exact hwritten.clear rest' (outOfWay_cons.1 hf) (List.forall_mem_singleton.2 (hplain.clear rest'))

theorem LandsWhereClear.object (hw : LandsWhereClear P p (next :: rest)) {oid : Nat}
    {fs : List (String × Owned)}
    (h : Held P s [.object id es]) (hs : p.StoredIn s P)
    (hc : Clear (part :: next :: rest) (.object id es))
    (ho : Entries.get? es part = some (.object oid fs)) :
    Lands P p (part :: next :: rest) s id es := by
  have hbelow := h.entry ho
  have hclear : Clear (next :: rest) (.object oid fs) :=
    hc.2 _ (by rw [onward,ho]; exact List.mem_cons_self)
  obtain ⟨s',fs',hstore,htree,hwritten⟩ := hw hbelow hs hclear
  refine ⟨s',_,?_,?_,.entry h ho hwritten.update rfl hwritten.clear⟩
  · unfold Store.fanOut
    rw [layer_object h]
    have hlayer : s.layer (Owned.object oid fs).item = _ := layer_object hbelow
    simp only [Entries.get?_map,ho,Option.map_some,Item.ofOption,hlayer]
    exact hstore
  · rw [tree] at htree ⊢
    unfold Value.fanOut
    simp only [Entries.get?_map,ho,Option.map_some,tree,htree]
    rw [← Entries.put_map tree,tree]

theorem LandsWhereClear.list (hw : LandsWhereClear P p (next :: rest)) (hp : p.ids = []) {lid : Nat}
    (h : Held P s [.object id es]) (hs : p.StoredIn s P)
    (hc : Clear (part :: next :: rest) (.object id es))
    (ho : Entries.get? es part = some (.list lid os)) :
    Lands P p (part :: next :: rest) s id es := by
  have hlist := h.entry ho
  have hclear : ∀ o ∈ os, Clear (next :: rest) o := fun o hm =>
    hc.2 o (by rw [onward,ho]; exact hm)
  obtain ⟨s',os',hstore,htree,hwritten⟩ :=
    hw.branch (List.cons_ne_nil _ _) hp (held_list.1 hlist).2.2.2 hs hclear
  have hupdate := Update.list hlist hwritten.update hwritten.items
  have hlayer : s.layer (Owned.list lid os).item = .list (os.map item) := by
    change s.layer (.cell lid) = _
    simp only [Store.layer,(held_list.1 hlist).1,Cell.layer]
  refine ⟨s',_,?_,?_,.entry h ho hupdate rfl hwritten.clear⟩
  · unfold Store.fanOut
    rw [layer_object h]
    simp only [Entries.get?_map,ho,Option.map_some,Item.ofOption,hlayer]
    exact congrArg (·,none) hstore
  · rw [tree]
    unfold Value.fanOut
    simp only [Entries.get?_map,ho,Option.map_some,tree,← htree]
    rw [← Entries.put_map tree,tree]

/-- A write into a held tree is the write into the tree that it stands for. -/
theorem writes (hp : p.ids = []) (path : List String) : LandsWhereClear P p path := by
  induction path with
  | nil =>
    intro s id es h hs hc
    exact ⟨s,es,rfl,rfl,.refl [] h⟩
  | cons part path ih =>
    intro s id es h hs hc
    cases path with
    | nil =>
      obtain ⟨s',hassign,hw⟩ := assign_landed hp hs part h
      refine ⟨s',_,hassign,?_,hw⟩
      simp only [Value.fanOut,Value.place,tree,Value.layer,Layer.assign,Layer.toValue,
        Entries.put_map tree]
    | cons next rest =>
      cases ho : Entries.get? es part with
      | none => exact ih.made hp h hs fun o h' => by rw [ho] at h'; cases h'
      | some o =>
        cases o with
        | leaf a => exact ih.made hp h hs fun o h' => ⟨a,by rw [ho] at h'; cases h'; rfl⟩
        | guest gid v =>
          have hguest := (hc.2 (.guest gid v) (by rw [onward,ho]; exact List.mem_cons_self)).1
          cases hguest
        | list lid os => exact ih.list hp h hs hc ho
        | object oid fs => exact ih.object h hs hc ho

end Owned

end StepGraph
