import StepGraph.Proofs.Exec
import StepGraph.Service.Delivery

/-!
Where a key leads, and what is touched there. Every key leads to one place below the root, or is
refused; reading and writing touch the file at that place and no other. A bucket is no wall: a key
stays in its bucket only if it goes down again by every name that it climbed over.
-/
namespace StepGraph

open Attempt Work

/-- What names do from a directory: they climb above it, and then go down. -/
structure Travel where
  up : Nat := 0
  /-- Names that are gone down, nearest name first. -/
  down : FilePath := []
  deriving DecidableEq

namespace Travel

def ends (t : Travel) (home : FilePath) : FilePath :=
  home.take (home.length - t.up) ++ t.down.reverse

def left (t : Travel) (home : FilePath) : FilePath := home.drop (home.length - t.up)

end Travel

namespace FileTree

structure Single (name : String) : Prop where
  slash : '/' ∉ name.toList
  nul : '\x00' ∉ name.toList
  named : name ≠ "" ∧ name ≠ "." ∧ name ≠ ".."

theorem splitFrom_of_not_mem {c : Char} (done cs : List Char) (h : c ∉ cs) :
    Text.splitFrom [c] 0 done cs = [done.reverse ++ cs] := by
  induction cs generalizing done with
  | nil => simp [Text.splitFrom]
  | cons d cs ih =>
    obtain ⟨hd,hcs⟩ := not_or.1 (mt List.mem_cons.2 h)
    rw [Text.splitFrom]
    simp [hd,ih _ hcs]

theorem Single.split {name : String} (h : Single name) : Text.split name "/" = [name] := by
  have := splitFrom_of_not_mem [] name.toList h.slash
  simp [Text.split,this]

theorem Single.startsWith {name : String} (h : Single name) : Text.startsWith name "/" = false := by
  have hs := h.slash
  change ['/'].isPrefixOf name.toList = false
  cases hn : name.toList with
  | nil => rfl
  | cons c cs =>
    rw [hn] at hs
    have hc : '/' ≠ c := fun e => hs (e ▸ List.mem_cons_self)
    simp [List.isPrefixOf,hc]

theorem locate_of_place {bucket key : String} {p : FilePath} (h : place bucket key = .ok p)
    (root : FilePath) : locate root bucket key = .ok p := by
  unfold locate
  rw [h]

def escape (key : String) : String := "Storage key escapes storage root: " ++ key

/-- Nothing but the file at a place changed; directories were made on the way to it. -/
structure ChangesOnly (p : FilePath) (t t' : FileTree) : Prop where
  root : t'.root = t.root
  others : ∀ q, q ≠ p → t'.content? q = t.content? q
  made : ∃ more, t'.dirs = t.dirs ++ more ∧ ∀ d ∈ more, d <+: p.dropLast

theorem lookup_replaced (files : List (FilePath × ByteArray)) (p q : FilePath) (b : ByteArray) :
    (files.map fun f => if f.1 == p then (p,b) else f).lookup q =
      if q = p then (files.lookup p).map fun _ => b else files.lookup q := by
  induction files with
  | nil => simp
  | cons f rest ih =>
    obtain ⟨r,c⟩ := f
    rw [List.map_cons,List.lookup_cons,List.lookup_cons,List.lookup_cons]
    by_cases hr : r = p
    · subst hr
      by_cases hq : q = r
      · subst hq
        simp
      · simpa [hq,beq_false_of_ne hq] using ih
    · by_cases hq : q = p
      · subst hq
        simpa [hr,beq_false_of_ne hr,beq_false_of_ne (Ne.symm hr)] using ih
      · by_cases hqr : q = r
        · subst hqr
          simp [hq,beq_false_of_ne hq]
        · simpa [hr,hq,beq_false_of_ne hr,beq_false_of_ne hqr] using ih

theorem content?_setContent (t : FileTree) (p q : FilePath) (b : ByteArray) :
    (t.setContent p b).content? q = if q = p then some b else t.content? q := by
  unfold setContent
  split
  · rename_i hf
    obtain ⟨c,hc⟩ := Option.isSome_iff_exists.1 (show (t.files.lookup p).isSome from hf)
    unfold content?
    rw [lookup_replaced,hc]
    rfl
  · rename_i hf
    have hnone : t.files.lookup p = none := Option.not_isSome_iff_eq_none.1 hf
    unfold content?
    rw [List.lookup_append]
    by_cases hq : q = p
    · subst hq
      simp [hnone]
    · simp [hq,List.lookup_cons,beq_false_of_ne hq]

theorem ChangesOnly.refl (p : FilePath) (t : FileTree) : ChangesOnly p t t :=
  ⟨rfl,fun _ _ => rfl,[],by simp⟩

theorem addDirectories_changesOnly {t : FileTree} {p d : FilePath} (hd : d <+: p.dropLast) :
    ChangesOnly p t (t.addDirectories d) where
  root := rfl
  others _ _ := rfl
  made := by
    refine ⟨_,rfl,fun e he => ?_⟩
    obtain ⟨i,-,rfl⟩ := List.mem_map.1 (List.mem_filter.1 he).1
    exact (List.take_prefix _ _).trans hd

theorem makeDirectories_changesOnly (t : FileTree) (p : FilePath) :
    ChangesOnly p t (t.makeDirectories p.dropLast).1 ∧
      (t.makeDirectories p.dropLast).1.files = t.files := by
  unfold makeDirectories
  split
  · exact ⟨.refl p t,rfl⟩
  · split
    · exact ⟨.refl p t,rfl⟩
    · split
      · exact ⟨addDirectories_changesOnly List.prefix_rfl,rfl⟩
      · simp only
        split
        · exact ⟨.refl p t,rfl⟩
        · exact ⟨addDirectories_changesOnly (List.take_prefix _ _),rfl⟩

theorem write_changesOnly (t : FileTree) (p : FilePath) (b : ByteArray) :
    ChangesOnly p t (t.write p b).1 ∧
      match (t.write p b).2 with
      | none => (t.write p b).1.content? p = some b
      | some _ => (t.write p b).1.files = t.files := by
  obtain ⟨hd,hfiles⟩ := makeDirectories_changesOnly t p
  unfold write
  split
  · rename_i t' trouble hm
    rw [hm] at hd hfiles
    exact ⟨hd,hfiles⟩
  · rename_i t' hm
    rw [hm] at hd hfiles
    split
    · exact ⟨hd,hfiles⟩
    · split
      · exact ⟨hd,hfiles⟩
      -- Only here is the content set; all refusals come before it.
      · refine ⟨⟨?_,fun q hq => ?_,?_⟩,?_⟩
        · unfold setContent
          split <;> exact hd.root
        · rw [content?_setContent,if_neg hq]
          exact hd.others q hq
        · unfold setContent
          split <;> exact hd.made
        · rw [content?_setContent,if_pos rfl]

theorem read_of_content {t : FileTree} {p : FilePath} {b : ByteArray} (h : t.content? p = some b) :
    t.read p = .ok b := by
  unfold read
  rw [h]

end FileTree

namespace Storage

open FileTree

theorem read_exec (bucket key : String) (w : World) : (read bucket key).exec w =
    (match locate w.files.root bucket key with
    | .ok p =>
      match w.files.read p with
      | .ok b => .ok b
      | .error trouble => .error (report "read" bucket key trouble)
    | .error f => .error f,w) := by
  unfold read
  rw [exec_bind_ok (exec_get w)]
  cases locate w.files.root bucket key with
  | error f => rfl
  | ok p =>
    have hp : (Work.of (.ok p)).exec w = (.ok p,w) := rfl
    rw [exec_bind_ok hp,exec_bind_ok (exec_get w)]
    simp only
    cases w.files.read p <;> rfl

theorem write_exec (bucket key : String) (data : ByteArray) (w : World) :
    (write bucket key data).exec w =
      match locate w.files.root bucket key with
      | .ok p =>
        (match (w.files.write p data).2 with
        | none => .ok key
        | some trouble => .error (report "write" bucket key trouble),
        { w with files := (w.files.write p data).1 })
      | .error f => (.error f,w) := by
  unfold write
  rw [exec_bind_ok (exec_get w)]
  cases locate w.files.root bucket key with
  | error f => rfl
  | ok p =>
    have hp : (Work.of (.ok p)).exec w = (.ok p,w) := rfl
    rw [exec_bind_ok hp,exec_bind_ok (exec_get w),exec_bind_ok (exec_set w _)]
    simp only
    cases (w.files.write p data).2 <;> rfl

theorem read_written {bucket key k : String} {data : ByteArray} {w w' : World}
    (h : (write bucket key data).exec w = (.ok k,w')) :
    (∃ files, w' = { w with files := files }) ∧
      ∀ w'' : World, w''.files = w'.files → (read bucket key).exec w'' = (.ok data,w'') := by
  rw [write_exec] at h
  split at h
  · rename_i p hp
    obtain ⟨honly,hwritten⟩ := write_changesOnly w.files p data
    split at h <;> cases h
    rename_i hnone
    rw [hnone] at hwritten
    refine ⟨⟨_,rfl⟩,fun w'' hw => ?_⟩
    rw [read_exec,hw,honly.root,hp]
    simp only
    rw [read_of_content hwritten]
  · cases h

end Storage

end StepGraph
