import Mathlib.Data.Fintype.Card
import StepGraph.Proofs.DataFile
import StepGraph.Proofs.TurnTwin

/-!
Runs that share their records. Apart from the records each run has a world of its own, and the runs
take their turns in any order. Without imaging steps each of them goes as it goes alone, and the
records that it owns have the same content.
-/
namespace StepGraph

open Attempt

theorem filter_mergeSort {α : Type} {le : α → α → Bool} (p : α → Bool) {xs : List α}
    (htrans : ∀ a b c, le a b = true → le b c = true → le a c = true)
    (htotal : ∀ a b, (le a b || le b a) = true)
    (h : (xs.filter p).Pairwise fun a b => le a b = true) :
    (xs.mergeSort le).filter p = xs.filter p := by
  have hsub := (List.sublist_mergeSort htrans htotal h List.filter_sublist).filter p
  rw [List.filter_filter] at hsub
  simp only [Bool.and_self] at hsub
  exact (hsub.eq_of_length (((List.mergeSort_perm xs le).filter p).length_eq).symm).symm

theorem Table.sorted_stepsOf {t t' : Table StepLog} (h : t.Climbs t') {id : Int}
    (hid : ∀ row ∈ t.rows, row.run ≠ id) : t'.sorted.filter (·.run == id) = t'.stepsOf id := by
  obtain ⟨added,ha,hp,-⟩ := h
  refine filter_mergeSort _ ?_ ?_ ?_
  · intro a b c hab hbc
    simp only [decide_eq_true_eq] at hab hbc ⊢
    exact Int.le_trans hab hbc
  · intro a b
    simpa using Int.le_total (Numbered.id a) (Numbered.id b)
  · have hold : t.rows.filter (·.run == id) = [] := List.filter_eq_nil_iff.2 (by simpa using hid)
    rw [ha,List.filter_append,hold,List.nil_append]
    refine (hp.sublist List.filter_sublist).imp fun h => ?_
    simpa using Int.le_of_lt h

/-- The records that a run owns, apart from numbers of records: its own, and those of its steps in the
order of their numbers. -/
def Database.owned (db : Database) (own : Option Int) : Option ExecutionLog × List StepLog :=
  own.elim (none,[]) fun id => ((db.executionLogs.get? id).map ExecutionLog.content,
    (db.stepLogs.sorted.filter (·.run == id)).map StepLog.content)

namespace Database

variable {own : Option Int} {m n : Nat} {db db' : Database}

theorem KeepsOpening.owned (h : db.KeepsOpening own m n db') (ho : db.Ordered) :
    db'.owned (some db.executionLogs.nextId) = db'.owned own := by
  cases own with
  | some id => rw [(h.new id rfl).1]
  | none =>
    have hrow : db'.executionLogs.get? db.executionLogs.nextId = none := by
      rw [h.keeps.runs _ (by simp)]
      exact List.find?_eq_none.2 fun row hrow => by simpa using Table.ne_nextId _ row hrow
    have hid : ∀ row ∈ db.stepLogs.rows, row.run ≠ db.executionLogs.nextId :=
      fun row hrow => Int.ne_of_lt (ho row hrow)
    have hsteps : db.stepLogs.stepsOf db.executionLogs.nextId = [] :=
      List.filter_eq_nil_iff.2 (by simpa using hid)
    unfold Database.owned
    simp only [Option.elim]
    rw [hrow,Table.sorted_stepsOf h.keeps.climbs hid,h.keeps.stepsOf (by simp),hsteps]
    rfl

theorem KeepsOpening.then {db'' : Database} (h : db.KeepsOpening own m n db')
    (h' : db'.KeepsTo own 0 0 db'') : db.KeepsOpening own m n db'' where
  keeps := h.keeps.trans h'
  new id hid := ⟨(h.new id hid).1,Int.lt_of_lt_of_le (h.new id hid).2 h'.newRuns.1⟩

theorem Admits.keepsTo {a b : Nat} (ha : db.Admits a) (h : db.KeepsTo own m m db') (hm : m + b ≤ a)
    (hown : ∀ id, own = some id → id < db'.executionLogs.nextId) : db'.Admits b := by
  have hruns := h.newRuns
  have hdocuments := h.newDocuments
  have hroom := ha.runs
  have hroom' := ha.documents
  refine ⟨by omega,by omega,fun row hrow => ?_⟩
  obtain ⟨added,hadded,hfor⟩ := h.steps
  rw [hadded] at hrow
  rcases List.mem_append.1 hrow with hrow | hrow
  · exact Int.lt_of_lt_of_le (ha.steps row hrow) hruns.1
  · exact hown _ (hfor row hrow)

end Database

theorem World.Twin.keepsTo {own own' other : Option Int} {m n : Nat} {w w' : World} {db : Database}
    (h : w.Twin own own' w') (hk : w'.db.KeepsTo other m n db)
    (hother : ∀ id, own' = some id → other ≠ some id) : w.Twin own own' { w' with db := db } := by
  obtain ⟨l,rfl,hl⟩ := h
  obtain ⟨runs,steps,documents,htables⟩ := hk.tables
  obtain ⟨hr,hs,hd⟩ := hk.present
  refine ⟨{ l with executionLogs := runs, stepLogs := steps, extractionLogs := documents },?_,?_⟩
  · rw [htables]
    rfl
  · subst htables
    refine { hl with
      executionLogs := hr.trans hl.executionLogs, stepLogs := hs.trans hl.stepLogs,
      extractionLogs := hd.trans hl.extractionLogs, rows := ?_ }
    have hrows := hl.rows
    cases hrows with
    | none => exact .none
    | some hrows =>
      have hid := hother _ rfl
      have hrun := hk.runs _ hid
      have hsteps := hk.stepsOf hid
      exact .some ⟨hrun.symm ▸ hrows.run,hsteps.symm ▸ hrows.steps⟩

theorem World.Twin.owned {own own' : Option Int} {w w' : World} {t t' : Table StepLog}
    (h : w.Twin own own' w') (hc : t.Climbs w.db.stepLogs) (hc' : t'.Climbs w'.db.stepLogs)
    (hid : ∀ id, own = some id → ∀ row ∈ t.rows, row.run ≠ id)
    (hid' : ∀ id, own' = some id → ∀ row ∈ t'.rows, row.run ≠ id) :
    w'.db.owned own' = w.db.owned own := by
  obtain ⟨l,rfl,hl⟩ := h
  have hrows := hl.rows
  cases hrows with
  | none => rfl
  | some hrows =>
    unfold Database.owned
    simp only [Option.elim]
    rw [Table.sorted_stepsOf hc (hid _ rfl),Table.sorted_stepsOf hc' (hid' _ rfl)]
    have hmap {x y : Option ExecutionLog} (h : Option.Rel (fun a b => b.content = a.content) x y) :
        y.map ExecutionLog.content = x.map ExecutionLog.content := by
      cases h with
      | none => rfl
      | some h => exact congrArg some h
    exact Prod.ext (hmap hrows.run) hrows.steps

namespace Launch

namespace Stage

variable {mode : Mode} {r : Request} {w : World}

theorem taken_imageless (h : Launch.Imageless mode r w) (k : Nat) :
    (taken mode r w k).1.Imageless mode r (taken mode r w k).2 := by
  induction k with
  | zero => exact h
  | succ k ih => exact turn_imageless ih

theorem taken_waits {k : Nat} (h : (taken mode r w k).1.waits = true) : (taken mode r w k).2 = w := by
  cases k with
  | zero => rfl
  | succ k =>
    rw [taken,turn_waits] at h
    cases h

theorem waits_eq {s : Stage} (h : s.waits = true) : s = .waiting := by
  cases s with
  | waiting => rfl
  | _ => cases h

theorem taken_keepsTo (hpos : w.db.executionLogs.nextId ≠ 0) (hi : Launch.Imageless mode r w)
    (k : Nat) : w.db.KeepsOpening (taken mode r w k).1.record? 1 1 (taken mode r w k).2.db := by
  induction k with
  | zero => exact (Database.KeepsTo.refl none 1 1 w.db).unopened
  | succ k ih =>
    rw [taken]
    cases hw : (taken mode r w k).1.waits with
    | true =>
      rw [waits_eq hw,taken_waits hw]
      exact turn_opens mode r hpos
    | false =>
      obtain ⟨hkeep,hrec⟩ := turn_keepsTo mode r (taken_imageless hi k).plain hw (taken mode r w k).2
      unfold record? at ih hkeep ⊢
      rw [hrec]
      exact ih.then hkeep

end Stage

/-- A request, with what its run works in apart from the records. -/
structure Job where
  mode : Mode
  request : Request
  world : World

def Job.within (j : Job) (db : Database) : World := { j.world with db := db }

def Job.taken (j : Job) (db : Database) (k : Nat) : Stage × World :=
  Stage.taken j.mode j.request (j.within db) k

/-- Runs that share their records, each between two of its turns. -/
structure System (n : Nat) where
  db : Database
  stage : Fin n → Stage
  world : Fin n → World

namespace System

variable {n : Nat}

def within (s : System n) (i : Fin n) : World := { s.world i with db := s.db }

def outset (jobs : Fin n → Job) (db : Database) : System n :=
  { db := db, stage := fun _ => .waiting, world := fun i => (jobs i).world }

def turn (jobs : Fin n → Job) (s : System n) (i : Fin n) : System n :=
  let p := (s.stage i).turn (jobs i).mode (jobs i).request (s.within i)
  { db := p.2.db, stage := Function.update s.stage i p.1, world := Function.update s.world i p.2 }

def play (jobs : Fin n → Job) (s : System n) (schedule : List (Fin n)) : System n :=
  schedule.foldl (turn jobs) s

def waiting (s : System n) : Nat := (Finset.univ.filter fun i => (s.stage i).waits = true).card

variable {jobs : Fin n → Job} {s : System n}

theorem turn_stage (i : Fin n) : (s.turn jobs i).stage i =
    ((s.stage i).turn (jobs i).mode (jobs i).request (s.within i)).1 := Function.update_self ..

theorem turn_within (i : Fin n) : (s.turn jobs i).within i =
    ((s.stage i).turn (jobs i).mode (jobs i).request (s.within i)).2 := by
  let p := (s.stage i).turn (jobs i).mode (jobs i).request (s.within i)
  change ({ Function.update s.world i p.2 i with db := p.2.db } : World) = p.2
  rw [Function.update_self]

theorem turn_stage_ne {i j : Fin n} (h : j ≠ i) : (s.turn jobs i).stage j = s.stage j :=
  Function.update_of_ne h ..

theorem turn_within_ne {i j : Fin n} (h : j ≠ i) :
    (s.turn jobs i).within j = { s.within j with db := (s.turn jobs i).db } := by
  unfold within turn
  simp only [Function.update_of_ne h]

theorem turn_waiting (i : Fin n) : (s.turn jobs i).waiting =
    ((Finset.univ.filter fun j => (s.stage j).waits = true).erase i).card := by
  refine congrArg Finset.card (Finset.ext fun j => ?_)
  by_cases h : j = i
  · subst h
    simp [turn_stage,Stage.turn_waits]
  · simp [turn_stage_ne h,h]

theorem turn_waiting_lt {i : Fin n} (h : (s.stage i).waits = true) :
    (s.turn jobs i).waiting + 1 = s.waiting := by
  rw [turn_waiting]
  exact Finset.card_erase_add_one (by simpa using h)

theorem turn_waiting_eq {i : Fin n} (h : (s.stage i).waits = false) :
    (s.turn jobs i).waiting = s.waiting := by
  rw [turn_waiting,Finset.erase_eq_of_notMem (by simpa using h)]
  rfl

/-- What holds of runs that took so many turns among each other. Each stands where it stands alone
after its turns, in a world that is the same to it, and no record belongs to two of them. -/
structure Inv (jobs : Fin n → Job) (db : Database) (turns : Fin n → Nat) (s : System n) : Prop where
  together : ∀ i, Stage.InTurn ((jobs i).taken db (turns i)) (s.stage i,s.within i)
  distinct : ∀ i j, i ≠ j → ∀ id, (s.stage i).record? = some id → (s.stage j).record? ≠ some id
  used : ∀ i id, (s.stage i).record? = some id →
    db.executionLogs.nextId ≤ id ∧ id < s.db.executionLogs.nextId
  later : db.executionLogs.nextId ≤ s.db.executionLogs.nextId
  room : s.db.Admits s.waiting
  climbs : db.stepLogs.Climbs s.db.stepLogs

namespace Inv

variable {db : Database} {turns : Fin n → Nat}

theorem outset (jobs : Fin n → Job) (hdb : db.Admits n) :
    Inv jobs db (fun _ => 0) (outset jobs db) where
  together i := ⟨.waiting,World.logs _,rfl,rfl,rfl,rfl,rfl,rfl,.none⟩
  distinct _ _ _ _ h := nomatch h
  used _ _ h := nomatch h
  later := Int.le_refl _
  room := by
    refine hdb.keepsTo (m := 0) (Database.KeepsTo.refl none 0 0 db) ?_ fun _ h => nomatch h
    rw [Nat.zero_add]
    exact Nat.le_trans (Finset.card_le_univ _) (Nat.le_of_eq (Fintype.card_fin n))
  climbs := refl_of Table.Climbs db.stepLogs

/-- What a turn does to the records: they are those of the run, and its own record stays or is new. -/
structure Turned (s s' : System n) (i : Fin n) (m : Nat) : Prop where
  keeps : s.db.KeepsTo (s'.stage i).record? m m s'.db
  own : ∀ id, (s'.stage i).record? = some id → (s.stage i).record? = some id ∨
    id = s.db.executionLogs.nextId ∧ id < s'.db.executionLogs.nextId
  waiting : m + s'.waiting ≤ s.waiting

theorem turned (h : Inv jobs db turns s)
    (hi : ∀ i, Imageless (jobs i).mode (jobs i).request ((jobs i).within db)) (i : Fin n) :
    ∃ m, Turned s (s.turn jobs i) i m := by
  cases hw : (s.stage i).waits with
  | true =>
    have hpos : (s.within i).db.executionLogs.nextId ≠ 0 := Int.ne_of_gt h.room.runs.1
    have opens := Stage.turn_opens (jobs i).mode (jobs i).request hpos
    rw [← Stage.waits_eq hw,← turn_stage] at opens
    refine ⟨1,opens.keeps,fun id hid => .inr (opens.new id hid),?_⟩
    exact Nat.le_of_eq ((Nat.add_comm ..).trans (turn_waiting_lt hw))
  | false =>
    have hplain := (h.together i).stage.plain (Stage.taken_imageless (hi i) (turns i)).plain
    obtain ⟨hkeep,hrec⟩ :=
      Stage.turn_keepsTo (jobs i).mode (jobs i).request hplain hw (s.within i)
    have hrecord : ((s.turn jobs i).stage i).record? = (s.stage i).record? := by
      rw [turn_stage]
      unfold Stage.record?
      rw [hrec]
    refine ⟨0,hrecord ▸ hkeep,fun id hid => .inl (hrecord ▸ hid),?_⟩
    exact Nat.le_of_eq ((Nat.zero_add _).trans (turn_waiting_eq hw))

theorem Turned.apart (h : Inv jobs db turns s) {i j : Fin n} (hji : j ≠ i) {m : Nat}
    (ht : Turned s (s.turn jobs i) i m) (id : Int) (hid : (s.stage j).record? = some id) :
    ((s.turn jobs i).stage i).record? ≠ some id := by
  intro howns
  rcases ht.own id howns with hold | ⟨hnew,-⟩
  · exact h.distinct j i hji id hid hold
  · have := (h.used j id hid).2
    omega

theorem Turned.distinct (h : Inv jobs db turns s) {i : Fin n} {m : Nat}
    (ht : Turned s (s.turn jobs i) i m) {a b : Fin n} (hab : a ≠ b) {id : Int}
    (ha : ((s.turn jobs i).stage a).record? = some id) :
    ((s.turn jobs i).stage b).record? ≠ some id := by
  intro hb
  by_cases hai : a = i
  · subst hai
    rw [turn_stage_ne (Ne.symm hab)] at hb
    exact ht.apart h (Ne.symm hab) id hb ha
  · rw [turn_stage_ne hai] at ha
    by_cases hbi : b = i
    · subst hbi
      exact ht.apart h hai id ha hb
    · rw [turn_stage_ne hbi] at hb
      exact h.distinct a b hab id ha hb

/-- A turn that a run takes first leaves room for it, by itself and among the others. -/
theorem admits (h : Inv jobs db turns s) (hdb : db.Admits n) {i : Fin n}
    (hw : ((jobs i).taken db (turns i)).1.waits = true) :
    ∃ m m', ((jobs i).taken db (turns i)).2.db.Admits (m + 1) ∧ (s.within i).db.Admits (m' + 1) := by
  have halone : ((jobs i).taken db (turns i)).2 = (jobs i).within db := Stage.taken_waits hw
  have hn : n - 1 + 1 = n := Nat.sub_add_cancel i.pos
  have hwaits : s.waiting = (s.turn jobs i).waiting + 1 :=
    (turn_waiting_lt ((h.together i).stage.waits.trans hw)).symm
  refine ⟨n - 1,(s.turn jobs i).waiting,?_,hwaits ▸ h.room⟩
  rw [halone,hn]
  exact hdb

theorem turn (h : Inv jobs db turns s) (hdb : db.Admits n)
    (hi : ∀ i, Imageless (jobs i).mode (jobs i).request ((jobs i).within db)) (i : Fin n) :
    Inv jobs db (Function.update turns i (turns i + 1)) (s.turn jobs i) := by
  obtain ⟨m,ht⟩ := h.turned hi i
  have hnext := ht.keeps.newRuns.1
  have hown (id : Int) (hid : ((s.turn jobs i).stage i).record? = some id) :
      db.executionLogs.nextId ≤ id ∧ id < (s.turn jobs i).db.executionLogs.nextId := by
    rcases ht.own id hid with hold | ⟨hnew,hlt⟩
    · have := h.used i id hold
      omega
    · exact ⟨hnew ▸ h.later,hlt⟩
  refine ⟨fun j => ?_,fun a b hab id ha => ht.distinct h hab ha,fun j id hid => ?_,?_,?_,?_⟩
  · by_cases hji : j = i
    · subst hji
      rw [Function.update_self,turn_stage,turn_within]
      exact Stage.turn_twin (jobs j).mode (jobs j).request (h.together j) (h.admits hdb)
    · rw [Function.update_of_ne hji,turn_stage_ne hji,turn_within_ne hji]
      obtain ⟨hs,hw⟩ := h.together j
      exact ⟨hs,hw.keepsTo ht.keeps (ht.apart h hji)⟩
  · by_cases hji : j = i
    · subst hji
      exact hown id hid
    · rw [turn_stage_ne hji] at hid
      have := h.used j id hid
      exact ⟨this.1,Int.lt_of_lt_of_le this.2 hnext⟩
  · exact Int.le_trans h.later hnext
  · exact h.room.keepsTo ht.keeps ht.waiting fun id hid => (hown id hid).2
  · exact trans_of Table.Climbs h.climbs ht.keeps.climbs

theorem play (h : Inv jobs db turns s) (hdb : db.Admits n)
    (hi : ∀ i, Imageless (jobs i).mode (jobs i).request ((jobs i).within db))
    (schedule : List (Fin n)) :
    Inv jobs db (fun i => turns i + schedule.count i) (s.play jobs schedule) := by
  induction schedule generalizing s turns with
  | nil => exact h
  | cons i schedule ih =>
    have hcount : (fun j => turns j + (i :: schedule).count j) =
        fun j => Function.update turns i (turns i + 1) j + schedule.count j := by
      funext j
      by_cases hji : j = i
      · subst hji
        rw [Function.update_self,List.count_cons_self]
        omega
      · rw [Function.update_of_ne hji,List.count_cons_of_ne (Ne.symm hji)]
    rw [hcount]
    exact ih (h.turn hdb hi i)

end Inv

end System

/-- A run has ended as the run of the request does alone in a world: with the same walk, the same
result but for numbers of records, in the same world apart from records, and with the same records. -/
structure EndsAlike (mode : Mode) (r : Request) (w : World) (s : Stage) (w' : World) : Prop where
  result : ∃ rec p done, s = .closed rec p done ∧
    Option.Rel (Journeyed Stage.SameEnd) ((journey mode r).exec w).1.toOption p ∧
    Agree Fault.Renumbered Report.Renumbered ((run mode r).exec w).1 done
  world : ∃ l : World.Logs, w' = ((run mode r).exec w).2.withLogs l ∧
    l.outages = ((run mode r).exec w).2.outages ∧ l.lost = ((run mode r).exec w).2.lost
  records : w'.db.owned s.record? =
    ((run mode r).exec w).2.db.owned (some w.db.executionLogs.nextId)

/-- Runs without imaging steps are isolated from each other. In whichever order they take turns, a run
that has no turn left has ended as it does alone, and its record is that of no other run. A run has no
turn left once it has taken as many as there can be. -/
theorem runs_isolated {n : Nat} (db : Database) (hdb : db.Admits n) (jobs : Fin n → Job)
    (hi : ∀ i, Imageless (jobs i).mode (jobs i).request ((jobs i).within db))
    (schedule : List (Fin n)) (i : Fin n) :
    (Stage.turnLimit ≤ schedule.count i →
      (((System.outset jobs db).play jobs schedule).stage i).turns = 0) ∧
    ((((System.outset jobs db).play jobs schedule).stage i).turns = 0 →
      EndsAlike (jobs i).mode (jobs i).request ((jobs i).within db)
        (((System.outset jobs db).play jobs schedule).stage i)
        (((System.outset jobs db).play jobs schedule).within i)) ∧
    ∀ j, j ≠ i → ∀ id, (((System.outset jobs db).play jobs schedule).stage i).record? = some id →
      (((System.outset jobs db).play jobs schedule).stage j).record? ≠ some id := by
  -- what holds of the runs among each other holds behind any schedule, and gives all three parts
  have h := (System.Inv.outset jobs hdb).play hdb hi schedule
  generalize (System.outset jobs db).play jobs schedule = s at h ⊢
  have htogether := h.together i
  unfold Job.taken at htogether
  have hturns := htogether.stage.turns
  refine ⟨fun hcount => ?_,fun hclosed => ?_,fun j hji id hid => h.distinct i j (Ne.symm hji) id hid⟩
  · have hle := Stage.taken_turns (jobs i).mode (jobs i).request ((jobs i).within db)
      (0 + schedule.count i)
    simp only at hturns
    omega
  · have hkeeps := Stage.taken_keepsTo (Int.ne_of_gt hdb.runs.1) (hi i) (0 + schedule.count i)
    obtain ⟨rec,hrun⟩ := Stage.taken_closed (jobs i).mode (jobs i).request ((jobs i).within db)
      (hturns.symm.trans hclosed)
    rw [hrun] at htogether hkeeps
    obtain ⟨hs,hw⟩ := htogether
    have hrecords := hw.owned hkeeps.keeps.climbs h.climbs
      (fun id hid row hrow => Int.ne_of_lt ((hkeeps.new id hid).1 ▸ hdb.steps row hrow))
      (fun id hid row hrow =>
        Int.ne_of_lt (Int.lt_of_lt_of_le (hdb.steps row hrow) (h.used i id hid).1))
    refine ⟨?_,?_,hrecords.trans (hkeeps.owned hdb.steps).symm⟩
    · generalize s.stage i = stage at hs
      cases hs with
      | closed hr hp hd => exact ⟨_,_,_,rfl,hp,hd⟩
    · obtain ⟨l,hl,hsame⟩ := hw
      exact ⟨l,hl,hsame.outages,hsame.lost⟩

def uploads (i : Fin 2) : Job where
  mode := .transformation
  request := submitting "CSV" (if i = 0 then "a,b\n1,2" else "c\n3")
  world := uploading

def alternately : List (Fin 2) := (List.replicate Stage.turnLimit [0,1]).flatten

theorem uploads_imageless (i : Fin 2) :
    Imageless (uploads i).mode (uploads i).request ((uploads i).within uploading.db) := by
  have hspares : ∀ i, ((departure .transformation 1 (uploads i).request).exec uploading).1.toOption.map
      (·.1.sparesImaging) = some true := by
    unfold departure prepare Graph.stored
    simp only [Graph.createdFirst_sort]
    decide +kernel
  rintro workflow d v ⟨⟩ hd
  have h := hspares i
  change (departure .transformation 1 (uploads i).request).exec uploading = (.ok d,v) at hd
  rw [hd] at h
  exact Graph.imageless_of_spares (Option.some.inj h)

/-- Turn by turn, the second of two uploads ends as it does alone, behind a visit of its upload. -/
theorem runs_isolated_uploads :
    EndsAlike .transformation (submitting "CSV" "c\n3") uploading
      (((System.outset uploads uploading.db).play uploads alternately).stage 1)
      (((System.outset uploads uploading.db).play uploads alternately).within 1) ∧
    ∃ rec p done, ((System.outset uploads uploading.db).play uploads alternately).stage 1 =
      .closed rec (some p) done ∧ p.1.visited = ["u"] := by
  have hadmits : uploading.db.Admits 2 := ⟨by decide,by decide,by simp [Database.Ordered,uploading]⟩
  have hcount : alternately.count 1 = Stage.turnLimit := by
    unfold alternately
    rw [List.count_flatten,List.map_replicate,List.sum_replicate_nat]
    rfl
  have hvisited : ((journey .transformation (submitting "CSV" "c\n3")).exec uploading).1.toOption.map
      (·.1.visited) = some ["u"] := by
    unfold journey departure prepare Graph.stored
    simp only [Graph.createdFirst_sort]
    decide +kernel
  obtain ⟨hclosed,halike,-⟩ :=
    runs_isolated uploading.db hadmits uploads uploads_imageless alternately 1
  have hends : EndsAlike .transformation (submitting "CSV" "c\n3") uploading
      (((System.outset uploads uploading.db).play uploads alternately).stage 1)
      (((System.outset uploads uploading.db).play uploads alternately).within 1) :=
    halike (hclosed (Nat.le_of_eq hcount.symm))
  obtain ⟨rec,p,done,hs,hp,-⟩ := hends.result
  generalize ((journey .transformation (submitting "CSV" "c\n3")).exec uploading).1.toOption = walked
    at hp hvisited
  refine ⟨hends,?_⟩
  cases hp with
  | none => cases hvisited
  | some hp => exact ⟨rec,_,done,hs,hp.visited.trans (Option.some.inj hvisited)⟩

end Launch

end StepGraph
