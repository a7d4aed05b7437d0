import StepGraph.Proofs.Custody
import StepGraph.Proofs.PathWrite

/-!
A context with an entry that stays. As long as nobody assigns the entry itself, it names the same
item, and what this item leads to can be protected: all that a run works with is reached through the
other entries.
-/
namespace StepGraph

open Edit

namespace Store

variable {P Q : Nat → Prop} {s s' : Store} {id : Nat} {key k : String} {o x : Item}

/-- A container with an entry for an item. Its other entries stand in a region, which has nothing in
common with the protected containers, and the container itself is in neither. -/
structure Keeping (s : Store) (P Q : Nat → Prop) (id : Nat) (key : String) (o : Item) : Prop where
  left : s.Region P
  right : s.Region Q
  disjoint : ∀ n, P n → ¬ Q n
  own : ¬ P id ∧ ¬ Q id
  entry : ∃ es, s.cells[id]? = some (.object es) ∧ Entries.get? es key = some o ∧
    ∀ e ∈ es, e.1 ≠ key → e.2.In Q

/-- After a change the container still keeps its entry, and the protected containers stay; the
region of the other entries has what it had. -/
def StillKeeping (s : Store) (P Q : Nat → Prop) (id : Nat) (key : String) (o : Item) (s' : Store) :
    Prop :=
  s.Agrees P s' ∧ ∃ Q', s'.Keeping P Q' id key o ∧ ∀ n, Q n → Q' n

namespace Keeping

theorem lt_size (h : s.Keeping P Q id key o) : id < s.cells.size := by
  obtain ⟨es,hcell,-⟩ := h.entry
  exact (Array.getElem?_eq_some_iff.1 hcell).1

theorem grows (h : s.Keeping P Q id key o) (hg : s.Grows s') : s'.Keeping P Q id key o where
  left := h.left.of_agrees (h.left.agrees hg)
  right := h.right.of_agrees (h.right.agrees hg)
  disjoint := h.disjoint
  own := h.own
  entry := by
    obtain ⟨es,hcell,hes⟩ := h.entry
    exact ⟨es,hg _ _ hcell,hes⟩

theorem inside (h : s.Keeping P Q id key o) (hi : Inside (s.withNew Q) s s') :
    s.Agrees P s' ∧ s'.Keeping P (s'.upTo (s.withNew Q)) id key o := by
  have ha : s.Agrees P s' := fun n hn => hi.outside n (h.left.not_withNew h.disjoint hn)
  refine ⟨ha,h.left.of_agrees ha,hi.region,fun n hn hq => ?_,⟨h.own.1,fun hq => ?_⟩,?_⟩
  · exact h.left.not_withNew h.disjoint hn hq.1
  · exact hq.1.elim h.own.2 (Nat.not_le.2 h.lt_size)
  · obtain ⟨es,hcell,hget,hes⟩ := h.entry
    have hnot : ¬ s.withNew Q id := fun hq => hq.elim h.own.2 (Nat.not_le.2 h.lt_size)
    refine ⟨es,(hi.outside id hnot).trans hcell,hget,fun e he hne => hi.mem ?_⟩
    exact h.right.mem_withNew (hes e he hne)

theorem layer {es : Entries Item} (h : s.cells[id]? = some (.object es)) :
    s.layer (.cell id) = .object es := by
  simp only [Store.layer,h]
  rfl

theorem assign_of_object {es : Entries Item} (h : s.layer (.cell id) = .object es) (k : String)
    (x : Item) : s.assign (.cell id) k x = (s.putField (.cell id) k x,none) := by
  unfold assign putField
  rw [h]
  rfl

theorem put (h : s.Keeping P Q id key o) (hx : x.In Q) (hk : k ≠ key) :
    s.Agrees P (s.putField (.cell id) k x) ∧ (s.putField (.cell id) k x).Keeping P Q id key o := by
  obtain ⟨es,hcell,hget,hes⟩ := h.entry
  obtain ⟨hlayer,hsize,hother⟩ := setCell_layer h.lt_size (.object (Entries.put es k x))
  have hput : s.putField (.cell id) k x = s.setCell id (.object (Entries.put es k x)) := by
    unfold putField
    rw [layer hcell]
    rfl
  rw [hput]
  have hP : s.Agrees P (s.setCell id (.object (Entries.put es k x))) := by
    intro n hn
    apply hother
    rintro rfl
    exact h.own.1 hn
  have hQ : s.Agrees Q (s.setCell id (.object (Entries.put es k x))) := by
    intro n hn
    apply hother
    rintro rfl
    exact h.own.2 hn
  refine ⟨hP,h.left.of_agrees hP,h.right.of_agrees hQ,h.disjoint,h.own,?_⟩
  refine ⟨Entries.put es k x,?_,?_,?_⟩
  · simp [setCell,h.lt_size]
  · rw [Entries.get?_put_of_ne hk.symm]
    exact hget
  · intro e he hne
    rcases Entries.mem_put e he with he | rfl
    · exact hes e he hne
    · exact hx

theorem still (h : s.Keeping P Q id key o) (hi : Inside (s.withNew Q) s s') :
    s.StillKeeping P Q id key o s' := by
  obtain ⟨ha,hk⟩ := h.inside hi
  refine ⟨ha,_,hk,fun n hn => ⟨.inl hn,?_⟩⟩
  exact Nat.lt_of_lt_of_le (h.right.bounded n hn) hi.size_le

theorem writeAt (h : s.Keeping P Q id key o) (hx : x.In Q) {parts : List String}
    (hp : ∀ k ∈ parts.head?.toList, k ≠ key) :
    s.StillKeeping P Q id key o (s.writeAt (.cell id) parts x).1 := by
  obtain ⟨es,hcell,hget,hes⟩ := h.entry
  have hlayer := layer hcell
  cases parts with
  | nil => exact ⟨.refl P s,Q,h,fun _ hn => hn⟩
  | cons part rest =>
    have hpart : part ≠ key := hp part (List.mem_singleton_self _)
    cases rest with
    | nil =>
      change s.StillKeeping P Q id key o (s.assign (.cell id) part x).1
      rw [assign_of_object hlayer]
      obtain ⟨ha,hk⟩ := h.put hx hpart
      exact ⟨ha,Q,hk,fun _ hn => hn⟩
    | cons next rest =>
      have hchild : (s.layer (.cell id)).child? part = .ok (Entries.get? es part) := by
        rw [hlayer]
        rfl
      unfold Store.writeAt
      simp only [hchild]
      cases hf : (Entries.get? es part).filter s.isContainer with
      | some j =>
        -- The rest of the path is written below another entry, so all of it stays inside.
        have hj := hes _ (Entries.mem_of_get? (Option.filter_eq_some_iff.1 hf).1) hpart
        exact h.still (writeAt_inside _ (fun _ hid => .inr hid) h.right.withNew
          (h.right.mem_withNew hj) (h.right.mem_withNew hx))
      | none =>
        -- A container is made, then it is assigned to the context, then the rest is written in it.
        obtain ⟨hi,hmade⟩ := allocLayer_inside (l := Layer.fresh next) (fun _ hid => .inr hid)
          h.right.withNew (by simp [fresh_below])
        have hxmade := hi.mem (h.right.mem_withNew hx)
        obtain ⟨ha,hk⟩ := h.inside hi
        obtain ⟨es',hcell',-⟩ := hk.entry
        obtain ⟨haput,hkput⟩ := hk.put hmade hpart
        simp only [assign_of_object (layer hcell')]
        have hw := writeAt_inside (next :: rest) (fun _ hid => .inr hid) hkput.right.withNew
          (hkput.right.mem_withNew hmade) (hkput.right.mem_withNew hxmade)
        obtain ⟨hawrite,Q',hk',hQ'⟩ := hkput.still hw
        refine ⟨(ha.trans haput).trans hawrite,Q',hk',fun n hn => hQ' n ⟨.inl hn,?_⟩⟩
        exact Nat.lt_of_lt_of_le (h.right.bounded n hn) hi.size_le

theorem setPath (h : s.Keeping P Q id key o) (hx : x.In Q) {path : String}
    (hp : ∀ k ∈ (Path.places path).head?.toList, k ≠ key) :
    s.StillKeeping P Q id key o (s.setPath (.cell id) path x).1 := by
  have hw := h.writeAt hx hp
  unfold Store.setPath
  simp only
  split <;> rename_i he <;> rw [he] at hw <;> exact hw

/-- All but the entry is reached through the other entries. -/
theorem field (h : s.Keeping P Q id key o) (hk : k ≠ key) : (s.field (.cell id) k).In Q := by
  obtain ⟨es,hcell,hget,hes⟩ := h.entry
  unfold Store.field View.field View.child?
  simp only [view,layer hcell]
  cases hx : Entries.get? es k with
  | none => trivial
  | some x => exact hes _ (Entries.mem_of_get? hx) hk

theorem get (h : s.Keeping P Q id key o) : Context.get s (.cell id) key = o := by
  obtain ⟨es,hcell,hget,hes⟩ := h.entry
  unfold Context.get Store.field View.field View.child?
  simp only [view,layer hcell,hget]
  rfl

end Keeping

end Store

def Custody.keeping (P : Nat → Prop) (id : Nat) {key : String} (hkey : Context.extractedKey ≠ key)
    (o : Item) : Custody (.cell id) where
  Holds live s := ∃ Q, s.Keeping P Q id key o ∧ ∀ i ∈ live, i.In Q
  Kept s s' := s.Agrees P s'
  Free k := k ≠ key
  refl := Store.Agrees.refl P
  trans := @Store.Agrees.trans P
  fewer := by
    rintro live live' s ⟨Q,hk,hQ⟩ h
    refine ⟨Q,hk,fun i hi => ?_⟩
    rcases h i hi with hi | ⟨a,rfl⟩
    · exact hQ i hi
    · trivial
  grows := by
    rintro live s s' ⟨Q,hk,hQ⟩ hg
    exact ⟨hk.left.agrees hg,Q,hk.grows hg,hQ⟩
  inside := by
    rintro live more s s' ⟨Q,hk,hQ⟩ h
    obtain ⟨hi,hmore⟩ := h (s.withNew Q) ⟨fun _ hid => .inr hid,Nat.le_refl _,hk.right.withNew,
      fun i hi => hk.right.mem_withNew (hQ i hi)⟩
    obtain ⟨ha,hk'⟩ := hk.inside hi
    refine ⟨ha,_,hk',fun i hi' => ?_⟩
    exact (List.mem_append.1 hi').elim (hmore i) fun hl => hi.mem (hk.right.mem_withNew (hQ i hl))
  set := by
    rintro live s x k ⟨Q,hk,hQ⟩ hx hne
    obtain ⟨ha,hk'⟩ := hk.put (hx.elim (hQ x) (by rintro ⟨a,rfl⟩; trivial)) hne
    exact ⟨ha,Q,hk',hQ⟩
  setPath := by
    rintro live s x path ⟨Q,hk,hQ⟩ hx hne
    obtain ⟨ha,Q',hk',hQ'⟩ := hk.setPath (hx.elim (hQ x) (by rintro ⟨a,rfl⟩; trivial)) hne
    exact ⟨ha,Q',hk',fun i hi => (hQ i hi).mono hQ'⟩
  extracted := by
    rintro live s ⟨Q,hk,hQ⟩
    refine ⟨Q,hk,fun i hi => (List.mem_append.1 hi).elim (fun he => ?_) (hQ i)⟩
    unfold Context.extracted? at he
    simp only at he
    split at he
    · rw [List.mem_singleton.1 he]
      exact hk.field hkey
    · simp at he
  extractedFree := hkey

end StepGraph
