import Mathlib.Data.List.Forall2
import Mathlib.Data.List.TakeWhile
import StepGraph.Proofs.PathWrite

/-!
Reading back what was written at a path. Writing and reading cut a path differently, so a lookup
finds what was written where each of its steps finds the place that the write made of the same
piece: then the lookup retraces the write, through containers that were there and through new ones.
An index that is written in figures is one such piece: figures are neither blanks nor signs.
-/
namespace StepGraph

namespace Text

def Ranges.disjoint (rs qs : Ranges) : Bool :=
  rs.all fun r => qs.all fun q => r.2 < q.1 || q.2 < r.1

theorem Ranges.not_has {rs qs : Ranges} (h : rs.disjoint qs = true) {c : Char}
    (hc : rs.has c = true) : qs.has c = false := by
  unfold has at hc ⊢
  obtain ⟨r,hr,hrc⟩ := List.any_eq_true.1 hc
  refine List.any_eq_false.2 fun q hq hqc => ?_
  have hrq := List.all_eq_true.1 (List.all_eq_true.1 h r hr) q hq
  simp only [Bool.and_eq_true,Bool.or_eq_true,decide_eq_true_eq] at hrc hqc hrq
  omega

def figures : Ranges := zeros.map (fun z => (z,z + 9)) ++ figureRanges

theorem has_figures {c : Char} (h : isFigure c = true) : figures.has c = true := by
  unfold isFigure at h
  unfold figures Ranges.has
  rw [List.any_append,Bool.or_eq_true]
  refine (Bool.or_eq_true _ _ ▸ h).imp_left fun hd => ?_
  unfold isDigit digit? at hd
  rw [Option.isSome_map,List.find?_isSome] at hd
  obtain ⟨z,hz,hc⟩ := hd
  refine List.any_eq_true.2 ⟨(z,z + 9),List.mem_map_of_mem hz,?_⟩
  simp only [Bool.and_eq_true,decide_eq_true_eq] at hc ⊢
  omega

theorem not_isBlank {c : Char} (h : isFigure c = true) : isBlank c = false := by
  have apart : figures.disjoint blankRanges = true := by decide
  exact Ranges.not_has apart (has_figures h)

theorem dropBlanks_eq_self {cs : List Char} (h : ∀ c ∈ cs, isBlank c = false) :
    dropBlanks cs = cs := by
  cases cs with
  | nil => rfl
  | cons c rest => exact List.dropWhile_cons_of_neg (by simp [h c List.mem_cons_self])

theorem trim_eq_self {s : String} (h : ∀ c ∈ s.toList, isBlank c = false) : trim s = s := by
  have hback := dropBlanks_eq_self fun c hc => h c (List.mem_reverse.1 hc)
  unfold trim trimRight trimLeft
  rw [hback,List.reverse_reverse,String.toList_ofList,dropBlanks_eq_self h,String.ofList_toList]

theorem not_isBlank_of_all {cs : List Char} (h : cs.all isFigure = true) :
    ∀ c ∈ cs, isBlank c = false :=
  fun c hc => not_isBlank (List.all_eq_true.1 h c hc)

end Text

namespace Decimal

open Text

theorem ne_of_isFigure {c d : Char} (h : isFigure c = true) (hd : isFigure d = false) : c ≠ d := by
  rintro rfl
  rw [h] at hd
  cases hd

theorem takeSign_figures {cs : List Char} (h : cs.all isFigure = true) : takeSign cs = (false,cs) := by
  cases cs with
  | nil => rfl
  | cons c rest =>
    have hc := List.all_eq_true.1 h c List.mem_cons_self
    have hm : c ≠ '-' := ne_of_isFigure hc (by decide)
    have hp : c ≠ '+' := ne_of_isFigure hc (by decide)
    unfold takeSign
    split
    · rename_i he
      exact absurd (List.cons.inj he).1 hm
    · rename_i he
      exact absurd (List.cons.inj he).1 hp
    · rfl

theorem joinGroups_figures {cs : List Char} (h : cs.all isFigure = true) : joinGroups cs = cs := by
  have grouped {a : Char} {rest : List Char} (ha : isFigure a = true) (h : rest.all isFigure = true)
      (hu : ∀ b more, rest ≠ '_' :: b :: more) : joinGroups (a :: rest) = a :: joinGroups rest :=
    joinGroups.eq_2 a rest hu
  induction cs with
  | nil => rfl
  | cons a rest ih =>
    rw [List.all_cons,Bool.and_eq_true] at h
    rw [grouped h.1 h.2 ?_,ih h.2]
    rintro b more rfl
    have hu := List.all_eq_true.1 h.2 '_' List.mem_cons_self
    exact ne_of_isFigure hu (by decide) rfl

theorem readWhole_figures {s : String} (h : isFigures s = true) {i : Int}
    (hi : readWhole s = .value i) :
    s.toList.all isDigit = true ∧ s.toList.length ≤ maxDigits ∧ i = digitsToNat s.toList := by
  have hall : s.toList.all isFigure = true := (Bool.and_eq_true_iff.1 h).2
  unfold readWhole trimmedChars at hi
  rw [trim_eq_self (not_isBlank_of_all hall),takeSign_figures hall] at hi
  simp only [joinGroups_figures hall] at hi
  split at hi
  · cases hi
  · rename_i hd
    split at hi
    · cases hi
    · rename_i hl
      cases hi
      simp only [Bool.or_eq_true,not_or,Bool.not_eq_true',Bool.not_eq_false] at hd
      exact ⟨hd.2,Nat.not_lt.1 hl,rfl⟩

end Decimal

namespace Segment

open Text

theorem leadingIndex?_figures {part : String} (h : isFigures part = true) {i : Int}
    (hi : readWhole part = .ok i) : leadingIndex? part.toList = some i ∧ 0 ≤ i := by
  obtain ⟨hne,hall⟩ := Bool.and_eq_true_iff.1 h
  have hvalue : Decimal.readWhole part = .value i := by
    unfold StepGraph.readWhole at hi
    split at hi
    · rename_i hv
      cases hi
      exact hv
    · cases hi
    · cases hi
  obtain ⟨hd,hl,rfl⟩ := Decimal.readWhole_figures h hvalue
  have htake : part.toList.takeWhile isDigit = part.toList :=
    List.takeWhile_eq_self_iff.2 fun c hc => List.all_eq_true.1 hd c hc
  refine ⟨?_,Int.natCast_nonneg _⟩
  unfold leadingIndex?
  rw [dropBlanks_eq_self (not_isBlank_of_all hall),Decimal.takeSign_figures hall]
  have hfits : (part.toList.isEmpty || decide (Decimal.maxDigits < part.toList.length)) = false := by
    rw [Bool.or_eq_false_iff,decide_eq_false_iff_not]
    exact ⟨by simpa using hne,Nat.not_lt.2 hl⟩
  simp only [htake,hfits,Bool.false_eq_true,if_false]

end Segment

variable {α : Type}

namespace Segment

/-- The single steps of a segment: a name and the index behind it are two. -/
def steps : Segment → List Segment
  | .keyIndex name i => [.key name,.index i]
  | g => [g]

def isSingle : Segment → Bool
  | .keyIndex _ _ => false
  | _ => true

theorem isSingle_of_mem_steps {g h : Segment} (hh : h ∈ g.steps) : h.isSingle = true := by
  cases g with
  | keyIndex name i =>
    rcases List.mem_cons.1 hh with rfl | hh
    · rfl
    · rw [List.mem_singleton.1 hh]
      rfl
  | _ => rw [List.mem_singleton.1 hh]; rfl

/-- A step finds, at a level, the place that a write makes of a part. A key is a place of an object
only; an index is the place of a list that the part counts, or the key that it is printed as. -/
def Finds (l : Layer α) (part : String) : Segment → Prop
  | .key name =>
    match l with
    | .object _ => name = part
    | _ => False
  | .index o =>
    match l with
    | .object _ => ∃ i, o = some i ∧ toString i = part
    | .list _ => o = leadingIndex? part.toList
    | .scalar _ => False
  | .keyIndex _ _ => False

end Segment

namespace Path

theorem itemAt_null {v : View α} {x : α} (h : v.isNull x = true) (i : Option Int) :
    itemAt v x i = none := by
  unfold View.isNull at h
  cases i with
  | none => rfl
  | some i =>
    unfold itemAt
    cases hl : v.layer x with
    | scalar a =>
      rw [hl] at h
      cases a <;> first | rfl | cases h
    | list xs =>
      rw [hl] at h
      cases h
    | object es =>
      rw [hl] at h
      cases h

theorem follow_cons {v : View α} {x z : α} {g : Segment} {gs : List Segment} :
    follow v x (g :: gs) = some z ↔
      ∃ y, step v x g = some y ∧ v.isNull y = false ∧ follow v y gs = some z := by
  simp only [follow]
  cases step v x g with
  | none => simp
  | some y => cases hn : v.isNull y <;> simp [hn]

theorem step_null {v : View α} {x : α} (h : v.isNull x = true) (g : Segment) : step v x g = none := by
  have hchild (name : String) : v.child? x name = none := by
    unfold View.isNull at h
    unfold View.child?
    cases hl : v.layer x with
    | object es =>
      rw [hl] at h
      cases h
    | _ => rfl
  cases g with
  | key name => exact hchild name
  | index i => exact itemAt_null h i
  | keyIndex name i => simp only [step,hchild,Option.bind_none]

theorem isNull_of_follow {v : View α} {gs : List Segment} {x y : α} (h : follow v x gs = some y)
    (hy : v.isNull y = false) : v.isNull x = false := by
  cases gs with
  | nil =>
    obtain rfl := Option.some.inj h
    exact hy
  | cons g gs =>
    obtain ⟨z,hz,-⟩ := follow_cons.1 h
    refine Bool.eq_false_iff.2 fun hx => ?_
    rw [step_null hx] at hz
    cases hz

theorem follow_append {v : View α} (gs hs : List Segment) {x y : α} (h : follow v x gs = some y) :
    follow v x (gs ++ hs) = follow v y hs := by
  induction gs generalizing x with
  | nil =>
    obtain rfl := Option.some.inj h
    rfl
  | cons g gs ih =>
    obtain ⟨z,hz,hn,hzy⟩ := follow_cons.1 h
    rw [List.cons_append,follow,hz]
    simp only [hn,Bool.false_eq_true,if_false,ih hzy]

theorem follow_steps (v : View α) (gs : List Segment) (x : α) :
    follow v x (gs.flatMap Segment.steps) = follow v x gs := by
  induction gs generalizing x with
  | nil => rfl
  | cons g gs ih =>
    cases g with
    | key name => simp only [List.flatMap_cons,Segment.steps,List.singleton_append,follow,ih]
    | index i => simp only [List.flatMap_cons,Segment.steps,List.singleton_append,follow,ih]
    | keyIndex name i =>
      simp only [List.flatMap_cons,Segment.steps,List.cons_append,List.nil_append,follow,step,ih]
      cases v.child? x name with
      | none => rfl
      | some y =>
        cases hn : v.isNull y with
        | true => simp [itemAt_null hn]
        | false => simp [hn]

end Path

namespace Layer

theorem placeOf_figures {part : String} (h : Text.isFigures part = true) {n : Nat}
    (hn : placeOf part = .ok n) : Segment.leadingIndex? part.toList = some (n : Int) := by
  unfold placeOf at hn
  cases hw : readWhole part with
  | error f =>
    rw [hw] at hn
    cases hn
  | ok i =>
    rw [hw] at hn
    obtain ⟨hi,hz⟩ := Segment.leadingIndex?_figures h hw
    cases hn
    rw [hi,Int.toNat_of_nonneg hz]

end Layer

namespace Segment

variable {v : View α} {x y pad : α} {l l' : Layer α} {part : String} {g : Segment}

theorem Finds.step_object {es es' : Entries α} (h : g.Finds (.object es) part)
    (hx : v.layer x = .object es') : Path.step v x g = Entries.get? es' part := by
  cases g with
  | key name =>
    obtain rfl : name = part := h
    simp only [Path.step,View.child?,hx]
  | index o =>
    obtain ⟨i,rfl,rfl⟩ := h
    simp only [Path.step,Path.itemAt,hx]
  | keyIndex name i => cases h

theorem Finds.step_list {xs xs' : List α} (h : g.Finds (.list xs) part)
    (hf : Text.isFigures part = true) {n : Nat} (hn : Layer.placeOf part = .ok n)
    (hx : v.layer x = .list xs') : Path.step v x g = xs'[n]? := by
  cases g with
  | key name => cases h
  | index o =>
    obtain rfl : o = leadingIndex? part.toList := h
    have hz : ¬ (n : Int) < 0 := by omega
    simp only [Path.step,Path.itemAt,hx,Layer.placeOf_figures hf hn,hz,if_false,Int.toNat_natCast]
  | keyIndex name i => cases h

theorem Finds.step_child (h : g.Finds l part) (hc : l.child? part = .ok (some y))
    (hx : v.layer x = l) : Path.step v x g = some y := by
  cases l with
  | scalar a => cases hc
  | object es =>
    rw [h.step_object hx]
    exact Except.ok.inj hc
  | list xs =>
    obtain ⟨hf,n,hn,hy⟩ := Layer.child?_list hc
    rw [h.step_list hf hn hx,hy]

theorem Finds.step_assign (h : g.Finds l part) (ha : l.assign pad part y = .ok l')
    (hx : v.layer x = l') : Path.step v x g = some y := by
  cases l with
  | scalar a => cases ha
  | object es =>
    obtain rfl := Except.ok.inj ha
    rw [h.step_object hx,Entries.get?_put_self]
  | list xs =>
    obtain ⟨hf,n,hn,rfl⟩ := Layer.assign_list ha
    rw [h.step_list hf hn hx,Layer.getElem?_setPadded]

end Segment

namespace Store

variable {s s' : Store} {i j x : Item}

/-- The level where a write goes on behind a part: a container that is there, or a new one. -/
def through (s : Store) (l : Layer Item) (part next : String) : Layer Item :=
  match l.child? part with
  | .error _ => Layer.fresh next
  | .ok o =>
    match o.filter s.isContainer with
    | some j => s.layer j
    | none => Layer.fresh next

/-- Steps that retrace a write which begins at a level: each finds its part where the write meets
it. -/
inductive Retraces (s : Store) : Layer Item → List Segment → List String → Prop
  | last {l : Layer Item} {g : Segment} {part : String} (finds : g.Finds l part) :
      Retraces s l [g] [part]
  | further {l : Layer Item} {g : Segment} {gs : List Segment} {part next : String}
      {rest : List String} (finds : g.Finds l part)
      (behind : Retraces s (s.through l part next) gs (next :: rest)) :
      Retraces s l (g :: gs) (part :: next :: rest)

theorem through_there {l : Layer Item} {part : String} (hj : l.child? part = .ok (some j))
    (hc : s.isContainer j = true) (next : String) : s.through l part next = s.layer j := by
  simp only [through,hj,Option.filter_some,hc,if_true]

theorem through_new {l : Layer Item} {part : String} {o : Option Item} (ho : l.child? part = .ok o)
    (hf : o.filter s.isContainer = none) (next : String) :
    s.through l part next = Layer.fresh next := by
  simp only [through,ho,hf]

theorem through_empty (s : Store) {l : Layer Item} (hl : l.below = []) (part next : String) :
    s.through l part next = Layer.fresh next := by
  unfold through
  cases hc : l.child? part with
  | error f => rfl
  | ok o =>
    cases o with
    | none => rfl
    | some j =>
      have hj := Layer.child?_below hc
      rw [hl] at hj
      cases hj

theorem Retraces.of_empty {l : Layer Item} {gs : List Segment} {parts : List String}
    (h : s.Retraces l gs parts) (hl : l.below = []) (s' : Store) : s'.Retraces l gs parts := by
  induction h with
  | last hg => exact .last hg
  | @further l g gs part next rest hg _ ih =>
    rw [through_empty s hl] at ih
    refine .further hg ?_
    rw [through_empty s' hl]
    exact ih (fresh_below next)

/-- Steps that retrace a write lead to what was written. -/
theorem follow_writeAt (parts : List String) {d : Nat} (hd : s.Readable d i) {gs : List Segment}
    (hr : s.Retraces (s.layer i) gs parts) (hx : s.view.isNull x = false)
    (hw : s.writeAt i parts x = (s',none)) : Path.follow s'.view i gs = some x := by
  induction parts generalizing s i gs d with
  | nil => cases hr
  | cons part rest ih =>
    have hsize := s.size_writeAt i (part :: rest) x
    rw [hw] at hsize
    generalize hl₀ : s.layer i = l at hr
    cases hr with
    | last hg =>
      rcases s.assign_cases i part x with ⟨f,ha⟩ | ⟨id,s₁,rfl,-,ha,hput,-⟩
      · cases ha.symm.trans hw
      · cases ha.symm.trans hw
        rw [hl₀] at hput
        exact Path.follow_cons.2 ⟨x,hg.step_assign hput rfl,isNull_mono hx hsize,rfl⟩
    | @further _ g gs _ next rest hg hr =>
      subst hl₀
      rcases writeAt_goes hd hw with ⟨j,hj,hc,⟨d,hd⟩,hw,hl⟩ | ⟨o,s₁,ho,hf,hp,hw,hl⟩
      · rw [through_there hj hc] at hr
        have hnull := isNull_mono (isNull_eq_false_of_isContainer rfl hc) hsize
        exact Path.follow_cons.2 ⟨j,hg.step_child hj hl,hnull,ih hd hr hx hw⟩
      -- the write goes on in a new container, and below it only new ones are met
      · rw [through_new ho hf] at hr
        have hfresh : (Layer.fresh next : Layer Item).isContainer = true :=
          Layer.isContainer_fresh next
        have hsize₁ : s.cells.size ≤ s₁.cells.size := by rw [hp.size]; omega
        have hsize₂ := s₁.size_writeAt (.cell s.cells.size) (next :: rest) x
        rw [hw] at hsize₂
        have hnull := isNull_mono (isNull_eq_false_of_isContainer hp.fresh hfresh) hsize₂
        have hfollow := ih (readable_empty hp.fresh (fresh_below next))
          (hp.fresh ▸ hr.of_empty (fresh_below next) s₁) (isNull_mono hx hsize₁) hw
        exact Path.follow_cons.2 ⟨_,hg.step_assign hp.put hl,hnull,hfollow⟩

theorem step_below {id : Nat} {g : Segment} (hg : g.isSingle = true) {y : Item}
    (h : Path.step s.view (.cell id) g = some y) : y ∈ (s.layer (.cell id)).below := by
  have look : s.view.layer (.cell id) = s.layer (.cell id) := rfl
  cases g with
  | key name =>
    simp only [Path.step,View.child?,look] at h
    split at h
    · rename_i es hl
      rw [hl]
      exact Entries.get?_below h
    · cases h
  | index o =>
    cases o with
    | none => cases h
    | some n =>
      simp only [Path.step,Path.itemAt,look] at h
      split at h
      · rename_i xs hl
        rw [hl]
        split at h
        · cases h
        · exact List.mem_of_getElem? h
      · rename_i es hl
        rw [hl]
        exact Entries.get?_below h
      · rename_i t hl
        exact absurd hl (layer_cell_ne_text t)
      · cases h
  | keyIndex name o => cases hg

theorem step_of_layer {g : Segment} {y : Item} (hg : g.isSingle = true)
    (hl : s'.layer i = s.layer i) (h : Path.step s.view i g = some y) :
    Path.step s'.view i g = some y := by
  rw [← h]
  cases g with
  | key name => simp only [Path.step,View.child?,view,hl]
  | index o =>
    cases o with
    | none => rfl
    | some n => simp only [Path.step,Path.itemAt,view,hl]
  | keyIndex name o => cases hg

theorem step_leaf {a : Scalar} {g : Segment} {y : Item} (hg : g.isSingle = true)
    (h : Path.step s.view (.leaf a) g = some y) : ∃ b, y = .leaf b := by
  have look : s.view.layer (.leaf a) = .scalar a := rfl
  cases g with
  | key name =>
    simp only [Path.step,View.child?,look] at h
    cases h
  | index o =>
    cases o with
    | none => cases h
    | some n =>
      simp only [Path.step,Path.itemAt,look] at h
      split at h
      · rename_i hl
        cases hl
      · rename_i hl
        cases hl
      · split at h
        · cases h
        · obtain ⟨c,-,rfl⟩ := Option.map_eq_some_iff.1 h
          exact ⟨_,rfl⟩
      · cases h
  | keyIndex name o => cases hg

theorem Readable.follow {gs : List Segment} (hg : ∀ g ∈ gs, g.isSingle = true) {d : Nat}
    (h : s.Readable d i) (hj : Path.follow s.view i gs = some j) : s.Readable d j := by
  induction gs generalizing i with
  | nil =>
    obtain rfl := Option.some.inj hj
    exact h
  | cons g gs ih =>
    obtain ⟨y,hy,-,hj⟩ := Path.follow_cons.1 hj
    refine ih (fun g hg' => hg g (List.mem_cons_of_mem _ hg')) ?_ hj
    cases d with
    | zero =>
      obtain ⟨v,hv⟩ := h
      cases hv
    | succ d =>
      cases i with
      | leaf a =>
        obtain ⟨b,rfl⟩ := step_leaf (hg g List.mem_cons_self) hy
        exact ⟨_,rfl⟩
      | cell id =>
        obtain ⟨v,hv⟩ := h.below y (step_below (hg g List.mem_cons_self) hy)
        exact ⟨v,readTo_succ hv⟩

theorem follow_above {gs : List Segment} (hg : ∀ g ∈ gs, g.isSingle = true) {d : Nat}
    (hd : s.Readable d i) (hj : Path.follow s.view i gs = some j) (parts : List String) (x : Item) :
    Path.follow (s.writeAt j parts x).1.view i gs = some j := by
  have hsize := s.size_writeAt j parts x
  induction gs generalizing i d with
  | nil => exact hj
  | cons g gs ih =>
    have hfirst := hg g List.mem_cons_self
    have hrest : ∀ h ∈ gs, h.isSingle = true := fun h hh => hg h (List.mem_cons_of_mem _ hh)
    obtain ⟨y,hy,hn,hyj⟩ := Path.follow_cons.1 hj
    cases i with
    | leaf a =>
      obtain ⟨b,rfl⟩ := step_leaf hfirst hy
      have hleaf : s.Readable 1 (.leaf b) := ⟨_,rfl⟩
      exact Path.follow_cons.2 ⟨_,step_of_layer hfirst rfl hy,hn,ih hrest hleaf hyj⟩
    | cell id =>
      -- what is written has a tree that is less deep than that of each container on the way
      obtain ⟨m,hm,hnot⟩ := hd.least
      have hbelow := hm.below y (step_below hfirst hy)
      have hlayer := writeAt_above (hbelow.follow hrest hyj) hnot parts x
      exact Path.follow_cons.2
        ⟨y,step_of_layer hfirst hlayer hy,isNull_mono hn hsize,ih hrest hbelow hyj⟩

/-- The containers that a write passes through on its way to one of them. -/
inductive Descends (s : Store) : Item → List String → Item → Prop
  | here (i : Item) : Descends s i [] i
  | further {i k j : Item} {part : String} {rest : List String}
      (child : (s.layer i).child? part = .ok (some k)) (container : s.isContainer k = true)
      (behind : Descends s k rest j) : Descends s i (part :: rest) j

theorem Descends.writeAt_eq {pre post : List String} (h : s.Descends i pre j) (hne : post ≠ [])
    (x : Item) : s.writeAt i (pre ++ post) x = s.writeAt j post x := by
  induction h with
  | here i => rfl
  | @further i k j first pre hk hc _ ih =>
    obtain ⟨next,after,he⟩ : ∃ next after, pre ++ post = next :: after :=
      List.exists_cons_of_ne_nil (by simp [hne])
    rw [← ih,List.cons_append,he,writeAt]
    simp only [hk,Option.filter_some,hc,if_true]

theorem Retraces.isContainer {l : Layer Item} {gs : List Segment} {parts : List String}
    (h : s.Retraces l gs parts) : l.isContainer = true := by
  have finds {g : Segment} {part : String} (hg : g.Finds l part) : l.isContainer = true := by
    cases l with
    | scalar a => cases g <;> cases hg
    | _ => rfl
  cases h with
  | last hg => exact finds hg
  | further hg _ => exact finds hg

theorem Retraces.ne_nil {l : Layer Item} {gs : List Segment} {parts : List String}
    (h : s.Retraces l gs parts) : parts ≠ [] := by
  cases h <;> simp

end Store

end StepGraph
