import StepGraph.Entries

/-!
Which entry an ordered map has under a name. Behind a merge it is that of the last layer that has
one, and of several entries with one name in a layer it is the last of these. Names stay distinct
under assigning.
-/
namespace StepGraph.Entries

variable {α : Type} {es later : Entries α} {k : String}

theorem get?_of_not_mem (h : k ∉ es.keys) : es.get? k = none := by
  induction es with
  | nil => rfl
  | cons e rest ih =>
    rw [keys,List.map_cons,List.mem_cons,not_or] at h
    rw [get?,if_neg h.1,ih h.2]

theorem get?_eq_none : es.get? k = none ↔ k ∉ es.keys := by
  refine ⟨fun h hk => ?_,get?_of_not_mem⟩
  induction es with
  | nil => cases hk
  | cons e rest ih =>
    rw [get?] at h
    split at h
    · cases h
    · rename_i hne
      exact (List.mem_cons.1 hk).elim hne (ih h)

theorem get?_append (es later : Entries α) (k : String) :
    get? (es ++ later) k = (get? es k).or (get? later k) := by
  induction es with
  | nil => rfl
  | cons e rest ih =>
    rw [List.cons_append,get?,get?]
    split
    · rfl
    · exact ih

theorem get?_map {β : Type} (f : α → β) (es : Entries α) (k : String) :
    get? (es.map fun e => (e.1,f e.2)) k = (es.get? k).map f := by
  induction es with
  | nil => rfl
  | cons e es ih =>
    simp only [List.map_cons,get?]
    split
    · rfl
    · exact ih

theorem get?_of_mem {x : α} (hd : es.keys.Nodup) (h : (k,x) ∈ es) : es.get? k = some x := by
  induction es with
  | nil => cases h
  | cons e rest ih =>
    obtain ⟨hnew,hd⟩ := List.nodup_cons.mp hd
    rcases List.mem_cons.1 h with rfl | h
    · exact if_pos rfl
    · rw [get?,if_neg,ih hd h]
      rintro rfl
      exact hnew (List.mem_map.2 ⟨_,h,rfl⟩)

theorem get?_filter (hd : es.keys.Nodup) (p : α → Bool) (k : String) :
    Entries.get? (es.filter fun e => p e.2) k = (es.get? k).filter p := by
  induction es with
  | nil => rfl
  | cons e rest ih =>
    obtain ⟨hnew,hd⟩ := List.nodup_cons.mp hd
    have hrest := ih hd
    by_cases hk : k = e.1
    · rw [get?,if_pos hk,Option.filter_some,List.filter_cons]
      split
      · exact if_pos hk
      · rw [hrest,hk,get?_of_not_mem hnew]
        rfl
    · rw [get?,if_neg hk,List.filter_cons,← hrest]
      split
      · exact if_neg hk
      · rfl

theorem get?_put (es : Entries α) (k : String) (x : α) (k' : String) :
    Entries.get? (es.put k x) k' = if k' = k then some x else es.get? k' := by
  split
  · rename_i hk
    rw [hk,get?_put_self]
  · rename_i hk
    exact get?_put_of_ne hk es x

theorem put_of_not_mem (h : k ∉ es.keys) (x : α) : es.put k x = es ++ [(k,x)] := by
  induction es with
  | nil => rfl
  | cons e rest ih =>
    rw [keys,List.map_cons,List.mem_cons,not_or] at h
    rw [put,if_neg h.1,ih h.2]
    rfl

theorem keys_put (es : Entries α) (k : String) (x : α) :
    (es.put k x).keys = if k ∈ es.keys then es.keys else es.keys ++ [k] := by
  induction es with
  | nil => rfl
  | cons e rest ih =>
    by_cases hk : k = e.1
    · simp [put,keys,hk]
    · have hput : keys (put (e :: rest) k x) = e.1 :: keys (put rest k x) := by
        rw [put,if_neg hk]
        rfl
      rw [hput,ih]
      by_cases hrest : k ∈ keys rest <;> simp_all [keys]

theorem mem_put {x : α} : ∀ e ∈ es.put k x, e ∈ es ∨ e = (k,x) := by
  induction es with
  | nil => simp [put]
  | cons e rest ih =>
    intro e' he'
    unfold put at he'
    split at he'
    · rename_i hk
      rcases List.mem_cons.1 he' with rfl | he'
      · exact .inr (by rw [hk])
      · exact .inl (List.mem_cons_of_mem _ he')
    · rcases List.mem_cons.1 he' with rfl | he'
      · exact .inl List.mem_cons_self
      · exact (ih e' he').imp_left (List.mem_cons_of_mem _)

theorem nodup_put (h : es.keys.Nodup) (k : String) (x : α) : (es.put k x).keys.Nodup := by
  rw [keys_put]
  split
  · exact h
  · rename_i hk
    refine List.nodup_append.2 ⟨h,by simp,?_⟩
    simpa using fun k' hk' => ne_of_mem_of_not_mem hk' hk

def last? (es : Entries α) (k : String) : Option α := get? es.reverse k

theorem last?_cons (e : String × α) (es : Entries α) (k : String) :
    last? (e :: es) k = (last? es k).or (if k = e.1 then some e.2 else none) := by
  unfold last?
  rw [List.reverse_cons,get?_append]
  rfl

theorem last?_eq (h : es.keys.Nodup) (k : String) : last? es k = get? es k := by
  induction es with
  | nil => rfl
  | cons e rest ih =>
    obtain ⟨hnew,hd⟩ := List.nodup_cons.mp h
    rw [last?_cons,ih hd,get?]
    split
    · rename_i hk
      rw [hk,get?_of_not_mem hnew]
      rfl
    · exact Option.or_none

theorem last?_of_not_mem (h : k ∉ es.keys) : last? es k = none :=
  get?_of_not_mem (by simpa [keys] using h)

theorem mem_keys_of_last? {x : α} (h : last? es k = some x) : k ∈ es.keys := by
  refine Decidable.byContradiction fun hn => ?_
  rw [last?_of_not_mem hn] at h
  cases h

theorem last?_rename {f : String → String} (hf : Function.Injective f) (es : Entries α) (k : String) :
    last? (es.map fun e => (f e.1,e.2)) (f k) = last? es k := by
  induction es with
  | nil => rfl
  | cons e rest ih => simp only [List.map_cons,last?_cons,ih,hf.eq_iff]

theorem last?_rename_eq_some {f : String → String} (hf : Function.Injective f) {x : α} :
    last? (es.map fun e => (f e.1,e.2)) k = some x ↔ ∃ name, k = f name ∧ last? es name = some x := by
  constructor
  · intro h
    obtain ⟨e,he,rfl⟩ := List.mem_map.1 (mem_keys_of_last? h)
    obtain ⟨e,-,rfl⟩ := List.mem_map.1 he
    exact ⟨e.1,rfl,(last?_rename hf es e.1).symm.trans h⟩
  · rintro ⟨name,rfl,h⟩
    exact (last?_rename hf es name).trans h

theorem get?_merge (es later : Entries α) (k : String) :
    get? (merge es later) k = (last? later k).or (get? es k) := by
  unfold merge
  induction later generalizing es with
  | nil => rfl
  | cons e rest ih =>
    rw [List.foldl_cons,ih,last?_cons,Option.or_assoc]
    split
    · rename_i hk
      rw [hk,get?_put_self]
      rfl
    · rename_i hk
      rw [get?_put_of_ne hk]
      rfl

theorem get?_merge_of_not_mem (h : k ∉ keys later) (es : Entries α) :
    get? (merge es later) k = get? es k := by
  rw [get?_merge,last?_of_not_mem h]
  rfl

theorem nodup_merge (h : es.keys.Nodup) (later : Entries α) : (merge es later).keys.Nodup := by
  unfold merge
  induction later generalizing es with
  | nil => exact h
  | cons e rest ih => exact ih (nodup_put h e.1 e.2)

theorem mem_merge {e : String × α} (h : e ∈ merge es later) : e ∈ es ∨ e ∈ later := by
  unfold merge at h
  induction later generalizing es with
  | nil => exact .inl h
  | cons l rest ih =>
    rcases ih h with h | h
    · exact (mem_put e h).imp_right fun he => List.mem_cons.2 (.inl he)
    · exact .inr (List.mem_cons_of_mem _ h)

theorem mem_keys_merge (h : k ∈ keys (merge es later)) : k ∈ keys es ∨ k ∈ keys later := by
  obtain ⟨e,he,rfl⟩ := List.mem_map.1 h
  exact (mem_merge he).imp List.mem_map_of_mem List.mem_map_of_mem

theorem get?_layers (layers : List (Entries α)) (es : Entries α) (k : String) :
    get? (layers.foldl merge es) k = (layers.reverse.findSome? fun l => last? l k).or (get? es k) := by
  induction layers generalizing es with
  | nil => rfl
  | cons l rest ih =>
    rw [List.foldl_cons,ih,get?_merge,← Option.or_assoc,List.reverse_cons,List.findSome?_append]
    simp

theorem nodup_layers (layers : List (Entries α)) (h : es.keys.Nodup) :
    (layers.foldl merge es).keys.Nodup := by
  induction layers generalizing es with
  | nil => exact h
  | cons l rest ih => exact ih (nodup_merge h l)

theorem get?_foldl_merge {layers : List (Entries α)} (h : ∀ l ∈ layers, k ∉ keys l)
    (es : Entries α) : get? (layers.foldl merge es) k = get? es k := by
  induction layers generalizing es with
  | nil => rfl
  | cons l rest ih =>
    obtain ⟨hl,hrest⟩ := List.forall_mem_cons.1 h
    rw [List.foldl_cons,ih hrest,get?_merge_of_not_mem hl]

theorem not_mem_keys_foldl {layers : List (Entries α)} (h : ∀ l ∈ layers, k ∉ keys l)
    {es : Entries α} (he : k ∉ keys es) : k ∉ keys (layers.foldl merge es) := by
  induction layers generalizing es with
  | nil => exact he
  | cons l rest ih =>
    obtain ⟨hl,hrest⟩ := List.forall_mem_cons.1 h
    exact ih hrest fun hm => (mem_keys_merge hm).elim he hl

theorem mem_foldl_merge {layers : List (Entries α)} {e : String × α}
    (h : e ∈ layers.foldl merge es) : e ∈ es ∨ ∃ l ∈ layers, e ∈ l := by
  induction layers generalizing es with
  | nil => exact .inl h
  | cons l rest ih =>
    rcases ih h with h | ⟨l',hl',h⟩
    · exact (mem_merge h).imp_right fun h => ⟨l,List.mem_cons_self,h⟩
    · exact .inr ⟨l',List.mem_cons_of_mem _ hl',h⟩

/-- What is merged behind a first entry leaves it first, with the value that it gets there. -/
theorem merge_first {name : String} {x : α} {done : Entries α} (hd : es.keys.Nodup)
    (hdone : ∀ k ∈ es.keys, k ∉ done.keys) :
    merge ((name,x) :: done) es = (name,(get? es name).getD x) :: (done ++ erase es name) := by
  unfold merge
  induction es generalizing x done with
  | nil => simp [get?,erase]
  | cons e rest ih =>
    obtain ⟨hnew,hd⟩ := List.nodup_cons.mp hd
    obtain ⟨he,hrest⟩ := List.forall_mem_cons.1 hdone
    rw [List.foldl_cons,get?]
    by_cases hk : e.1 = name
    · rw [put,if_pos hk,ih hd hrest,if_pos hk.symm]
      have hnone : get? rest name = none := get?_of_not_mem (hk ▸ hnew)
      simp [hnone,erase,hk]
    · rw [put,if_neg hk,put_of_not_mem he,ih hd,if_neg (Ne.symm hk)]
      · simp [erase,hk]
      · intro k hk'
        have hne : k ≠ e.1 := ne_of_mem_of_not_mem hk' hnew
        simpa [keys,hne] using hrest k hk'

end StepGraph.Entries
