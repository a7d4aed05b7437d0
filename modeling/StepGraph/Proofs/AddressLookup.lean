import StepGraph.FieldFunction.Apply
import StepGraph.Proofs.CheckedReply

/-!
Looking a part of an address up. A provider is asked the same question again as long as it fails or
replies with what is no document; the first other outcome settles the lookup, and where none comes
the last fault stays. How often a provider is asked is told by the state that it is left in, so this
holds of every provider, whatever it does and whatever its outcomes depend on.
-/
namespace StepGraph

namespace Attempt

variable {σ α : Type} {again : Fault → Bool} {body : Attempt σ α} {s : σ}

/-- The state that is left by some runs of a program, whatever they end with. -/
def behind (body : Attempt σ α) (s : σ) : Nat → σ
  | 0 => s
  | n + 1 => (body.exec (behind body s n)).2

def turn (body : Attempt σ α) (s : σ) (n : Nat) : Except Fault α := (body.exec (behind body s n)).1

theorem behind_exec (n : Nat) : behind body (body.exec s).2 n = behind body s (n + 1) := by
  induction n with
  | zero => rfl
  | succ n ih => exact congrArg (fun s' => (body.exec s').2) ih

theorem turn_exec (n : Nat) : turn body (body.exec s).2 n = turn body s (n + 1) :=
  congrArg (fun s' => (body.exec s').1) (behind_exec n)

def Retried (again : Fault → Bool) (r : Except Fault α) : Prop := ∃ f, r = .error f ∧ again f = true

theorem retried_error {f : Fault} :
    Retried again (.error f : Except Fault α) ↔ again f = true := by simp [Retried]

theorem not_retried_ok (x : α) : ¬Retried again (.ok x) := by simp [Retried]

instance : (r : Except Fault α) → Decidable (Retried again r)
  | .ok x => .isFalse (not_retried_ok x)
  | .error _ => decidable_of_iff _ retried_error.symm

theorem exec_retry_again (h : Retried again (body.exec s).1) (more : Nat) :
    (retry again body (more + 1)).exec s = (retry again body more).exec (body.exec s).2 := by
  obtain ⟨f,hf,hagain⟩ := h
  rw [exec_retry]
  rcases hb : body.exec s with ⟨r,s'⟩
  rw [hb] at hf
  simp only at hf
  subst hf
  simp only [hagain,if_true]

theorem exec_retry_last (h : ¬Retried again (body.exec s).1) (more : Nat) :
    (retry again body more).exec s = body.exec s := by
  cases more with
  | zero => rfl
  | succ more =>
    rw [exec_retry]
    rcases hb : body.exec s with ⟨f | x,s'⟩
    · rw [hb] at h
      have hagain : again f = false := by
        by_contra hagain
        exact h ⟨f,rfl,by simpa using hagain⟩
      simp only [hagain,Bool.false_eq_true,if_false]
    · rfl

/-- The runs of a program end with the first one that calls for no other, or with the last one
allowed. -/
theorem exec_retry_turn {more n : Nat} (hn : n ≤ more)
    (hearlier : ∀ i < n, Retried again (turn body s i))
    (hlast : n < more → ¬Retried again (turn body s n)) :
    (retry again body more).exec s = (turn body s n,behind body s (n + 1)) := by
  induction n generalizing more s with
  | zero =>
    cases more with
    | zero => rfl
    | succ more => exact exec_retry_last (hlast (Nat.succ_pos more)) _
  | succ n ih =>
    obtain ⟨more,rfl⟩ : ∃ m, more = m + 1 := ⟨more - 1,by omega⟩
    have hfirst : Retried again (body.exec s).1 := hearlier 0 (Nat.succ_pos n)
    rw [exec_retry_again hfirst,← turn_exec,← behind_exec]
    refine ih (by omega) (fun i hi => ?_) fun hlt => ?_
    · rw [turn_exec]
      exact hearlier (i + 1) (by omega)
    · rw [turn_exec]
      exact hlast (by omega)

end Attempt

namespace FieldFunction

open Attempt

variable {σ α : Type} {complete : String → Attempt σ String} {prompt : String} {s : σ}
  {r : Except Fault String} {e : Except Fault Value} {f : Fault} {limit : Int}
  {a : Access α} {doc : α} {record : Scope} {place part : String}

/-- An outcome behind which the provider is not asked again, with what the lookup then has: a
document; a text at which reading gives up, since a number in it is too long or it nests too deep;
or a fault that is no failure of a collaborator. -/
inductive EndsAsking : Except Fault String → Except Fault Value → Prop
  | document {text : String} {v : Value} (h : Json.parse (Completion.withoutFences text) = .ok v) :
    EndsAsking (.ok text) (.ok v)
  | longNumber {text : String} {n : Nat}
    (h : Json.parse (Completion.withoutFences text) = .error (.tooManyDigits n)) :
    EndsAsking (.ok text) (.error (.invalid (Json.tooManyDigitsText n)))
  | deep {text : String} (h : Json.parse (Completion.withoutFences text) = .error .tooDeep) :
    EndsAsking (.ok text) (.error (.misuse .tooDeep))
  | other {f : Fault} (h : f.isExternal = false) : EndsAsking (.error f) (.error f)

/-- An outcome behind which the provider is asked again, with the fault that stays if it is not: a
text that is no document, or the failure of a collaborator. -/
inductive Fails : Except Fault String → Fault → Prop
  | unreadable {text : String} {c : Json.Complaint} {place line column : Nat}
    (h : Json.parse (Completion.withoutFences text) = .error (.complaint c place line column)) :
    Fails (.ok text) (.stepFault (.reply text)
      ("Failed to parse AI response: " ++ (Json.SyntaxFault.complaint c place line column).message)
      .null)
  | collaborator {f : Fault} (h : f.isExternal = true) : Fails (.error f) f

def heard : Except Fault String → Except Fault Value
  | .ok text => Completion.read text .null
  | .error f => .error f

theorem heard_of_endsAsking (h : EndsAsking r e) : heard r = e ∧ ¬Retried Fault.isExternal e := by
  cases h with
  | document h =>
    rw [heard]
    exact ⟨Steps.read_eq_ok.2 h,not_retried_ok _⟩
  | longNumber h | deep h =>
    rw [heard]
    unfold Completion.read
    rw [h,retried_error]
    exact ⟨rfl,Bool.false_ne_true⟩
  | other h =>
    rw [retried_error,h]
    exact ⟨rfl,Bool.false_ne_true⟩

theorem heard_of_fails (h : Fails r f) : heard r = .error f ∧ f.isExternal = true := by
  cases h with
  | unreadable h =>
    rw [heard]
    unfold Completion.read
    rw [h]
    exact ⟨rfl,rfl⟩
  | collaborator h => exact ⟨rfl,h⟩

theorem endsAsking_or_fails (r : Except Fault String) : (∃ e, EndsAsking r e) ∨ ∃ f, Fails r f := by
  cases r with
  | error f =>
    cases h : f.isExternal with
    | false => exact .inl ⟨_,.other h⟩
    | true => exact .inr ⟨_,.collaborator h⟩
  | ok text =>
    cases h : Json.parse (Completion.withoutFences text) with
    | ok v => exact .inl ⟨_,.document h⟩
    | error stop =>
      cases stop with
      | complaint c place line column => exact .inr ⟨_,.unreadable h⟩
      | tooManyDigits n => exact .inl ⟨_,.longNumber h⟩
      | tooDeep => exact .inl ⟨_,.deep h⟩

theorem fails_iff_retried : (∃ f, Fails r f) ↔ Retried Fault.isExternal (heard r) := by
  constructor
  · rintro ⟨f,hf⟩
    obtain ⟨hheard,hagain⟩ := heard_of_fails hf
    rw [hheard]
    exact retried_error.2 hagain
  · intro hretried
    rcases endsAsking_or_fails r with ⟨e,he⟩ | hfails
    · obtain ⟨hheard,hstop⟩ := heard_of_endsAsking he
      exact absurd (hheard ▸ hretried) hstop
    · exact hfails

def Failing (outcomes : Nat → Except Fault String) (n : Nat) : Prop :=
  ∀ i < n, ∃ f, Fails (outcomes i) f

instance (outcomes : Nat → Except Fault String) (n : Nat) : Decidable (Failing outcomes n) :=
  decidable_of_iff (∀ i < n, Retried Fault.isExternal (heard (outcomes i)))
    (forall₂_congr fun _ _ => fails_iff_retried.symm)

theorem failing_or_settled (outcomes : Nat → Except Fault String) (n : Nat) :
    Failing outcomes n ∨ ∃ k < n, Failing outcomes k ∧ ∃ e, EndsAsking (outcomes k) e := by
  induction n with
  | zero => exact .inl fun i hi => absurd hi (Nat.not_lt_zero i)
  | succ n ih =>
    rcases ih with hall | ⟨k,hk,hsettled⟩
    · rcases endsAsking_or_fails (outcomes n) with hsettles | hfails
      · exact .inr ⟨n,Nat.lt_succ_self n,hall,hsettles⟩
      · refine .inl fun i hi => ?_
        rcases Nat.lt_succ_iff_lt_or_eq.1 hi with hi | rfl
        · exact hall i hi
        · exact hfails
    · exact .inr ⟨k,Nat.lt_succ_of_lt hk,hsettled⟩

theorem exec_askOf (s : σ) : (askOf complete prompt).exec s =
    (heard ((complete prompt).exec s).1,((complete prompt).exec s).2) := by
  unfold askOf
  rw [exec_bind]
  rcases (complete prompt).exec s with ⟨f | text,s'⟩
  · rfl
  · simp only [exec_of,heard]

theorem behind_askOf (n : Nat) :
    behind (askOf complete prompt) s n = behind (complete prompt) s n := by
  induction n with
  | zero => rfl
  | succ n ih =>
    unfold behind
    rw [ih,exec_askOf]

theorem turn_askOf (n : Nat) :
    turn (askOf complete prompt) s n = heard (turn (complete prompt) s n) := by
  unfold turn
  rw [behind_askOf,exec_askOf]

/-- What a reply says: what an object has under `value`, and any other reply itself. -/
inductive Says : Value → Value → Prop
  | entry {es : Entries Value} {a : Value} (h : es.get? "value" = some a) : Says (.object es) a
  | silent {es : Entries Value} (h : es.get? "value" = none) : Says (.object es) .null
  | itself {v : Value} (h : ∀ es, v ≠ .object es) : Says v v

/-- What a lookup gives for what it has: nothing where a reply says null, else the trimmed text of
what it says, and a fault as it is. -/
inductive Answers : Except Fault Value → Except Fault (Option String) → Prop
  | unknown {v a : Value} (h : Says v a) (ha : a.isNull = true) : Answers (.ok v) (.ok none)
  | known {v a : Value} {t : String} (h : Says v a) (ha : a.isNull = false)
    (ht : a.asText = .ok t) : Answers (.ok v) (.ok (some (Text.trim t)))
  | fault {f : Fault} : Answers (.error f) (.error f)

theorem says_iff {v a : Value} : Says v a ↔ a = answerOf v := by
  refine ⟨fun h => ?_,fun h => h ▸ ?_⟩
  · cases h with
    | entry h => exact (congrArg (·.getD .null) h).symm
    | silent h => exact (congrArg (·.getD .null) h).symm
    | itself h =>
      cases v with
      | scalar _ | list _ => rfl
      | object es => exact absurd rfl (h es)
  · cases v with
    | scalar _ | list _ => exact .itself nofun
    | object es =>
      change Says (.object es) ((Entries.get? es "value").getD .null)
      cases h : Entries.get? es "value" with
      | none => exact .silent h
      | some a => exact .entry h

def answered (e : Except Fault Value) : Except Fault (Option String) := do
  let value := answerOf (← e)
  if value.isNull then return none
  return some (Text.trim (← value.asText))

theorem answers_of_endsAsking (h : EndsAsking r e) : Answers e (answered e) := by
  cases h with
  | @document text v h =>
    have hv : (answerOf v).Writable := by
      unfold answerOf
      split
      · exact Value.writable_hereditary.field (Json.writable_parse h) "value"
      · exact Json.writable_parse h
    obtain ⟨t,ht⟩ := Value.asText_iff.2 hv
    cases hnull : (answerOf v).isNull with
    | true =>
      have hanswered : answered (.ok v) = .ok none := if_pos hnull
      rw [hanswered]
      exact .unknown (says_iff.2 rfl) hnull
    | false =>
      have hanswered : answered (.ok v) = .ok (some (Text.trim t)) := by
        change (if (answerOf v).isNull = true then _ else _) = _
        rw [hnull,ht]
        rfl
      rw [hanswered]
      exact .known (says_iff.2 rfl) hnull ht
  | longNumber _ | deep _ | other _ => exact .fault

/-- How a lookup goes that may ask a question some times. Either all the outcomes within the limit
are failures, or a first one settles it. It asks up to the outcome that settles it and never more
often than it may, and gives the answer if it comes that far; where all the questions fail, the last
fault stays. -/
structure Questioned (limit : Int) (question : Attempt σ String) (s : σ)
    (result : Except Fault (Option String) × σ) : Prop where
  decided : Failing (question.turn s) limit.toNat ∨
    ∃ k < limit.toNat, Failing (question.turn s) k ∧ ∃ e, EndsAsking (question.turn s k) e
  settled : ∀ k e, Failing (question.turn s) k → EndsAsking (question.turn s k) e →
    result.2 = question.behind s (min (k + 1) limit.toNat) ∧ (k < limit.toNat → Answers e result.1)
  failed : ∀ f, Failing (question.turn s) limit.toNat →
    Fails (question.turn s (limit.toNat - 1)) f →
    result = (.error f,question.behind s limit.toNat)

theorem exec_lookupOf (hplace : address a doc record = .ok place) (hne : place ≠ "") (s : σ) :
    (lookupOf complete a limit doc record).exec s =
      match wanted a doc with
      | .error f => (.error f,s)
      | .ok part =>
        let asked := (retry Fault.isExternal (askOf complete (lookupPrompt place part))
          (further limit)).exec s
        (answered asked.1,asked.2) := by
  have hempty : place.isEmpty = false := by simpa [String.isEmpty_iff] using hne
  unfold lookupOf
  rw [hplace,exec_bind_ok (exec_of _ _)]
  simp only [hempty,Bool.false_eq_true,if_false]
  cases wanted a doc with
  | error f => rfl
  | ok part =>
    rw [exec_bind_ok (exec_of _ _),exec_bind]
    simp only
    rcases (retry Fault.isExternal (askOf complete (lookupPrompt place part)) (further limit)).exec s
      with ⟨f | v,s'⟩
    · rfl
    · unfold answered
      simp only [bind,Except.bind]
      split
      · rfl
      · cases (answerOf v).asText <;> rfl

theorem fails_retried {i : Nat} (h : ∃ f, Fails ((complete prompt).turn s i) f) :
    Retried Fault.isExternal (turn (askOf complete prompt) s i) := by
  rw [turn_askOf]
  exact fails_iff_retried.1 h

/-- Questions all of which but the last one fail, and the last one too unless it settles the lookup
or no other is allowed. -/
theorem exec_questions (hplace : address a doc record = .ok place) (hne : place ≠ "")
    (hpart : wanted a doc = .ok part) {n : Nat} (hn : n ≤ further limit)
    (hearlier : Failing ((complete (lookupPrompt place part)).turn s) n)
    (hlast : n < further limit →
      ∃ e, EndsAsking ((complete (lookupPrompt place part)).turn s n) e) :
    (lookupOf complete a limit doc record).exec s =
      (answered (heard ((complete (lookupPrompt place part)).turn s n)),
        (complete (lookupPrompt place part)).behind s (n + 1)) := by
  have hretry : (retry Fault.isExternal (askOf complete (lookupPrompt place part))
      (further limit)).exec s =
        (turn (askOf complete (lookupPrompt place part)) s n,
          behind (askOf complete (lookupPrompt place part)) s (n + 1)) := by
    refine exec_retry_turn hn (fun i hi => fails_retried (hearlier i hi)) fun hlt => ?_
    obtain ⟨e,he⟩ := hlast hlt
    obtain ⟨hheard,hstop⟩ := heard_of_endsAsking he
    rwa [turn_askOf,hheard]
  rw [exec_lookupOf hplace hne,hpart]
  simp only [hretry,turn_askOf,behind_askOf]

theorem lookupOf_questioned (hlimit : 1 ≤ limit) (hplace : address a doc record = .ok place)
    (hne : place ≠ "") (hpart : wanted a doc = .ok part) (s : σ) :
    Questioned limit (complete (lookupPrompt place part)) s
      ((lookupOf complete a limit doc record).exec s) := by
  have hfurther : further limit + 1 = limit.toNat := by
    unfold further
    omega
  refine ⟨failing_or_settled _ _,fun k e hearlier hsettles => ?_,fun f hearlier hfails => ?_⟩
  · rcases Nat.lt_or_ge k limit.toNat with hk | hk
    · rw [exec_questions hplace hne hpart (by omega) hearlier fun _ => ⟨e,hsettles⟩,
        (heard_of_endsAsking hsettles).1,Nat.min_eq_left hk]
      exact ⟨rfl,fun _ => answers_of_endsAsking hsettles⟩
    · -- the outcome that would settle the lookup is out of reach
      rw [exec_questions hplace hne hpart (Nat.le_refl _) (fun i hi => hearlier i (by omega))
        fun hlt => absurd hlt (Nat.lt_irrefl _),hfurther,Nat.min_eq_right (by omega)]
      exact ⟨rfl,fun hlt => absurd hlt (Nat.not_lt.2 hk)⟩
  · have hlast : further limit = limit.toNat - 1 := by omega
    rw [exec_questions hplace hne hpart (Nat.le_refl _) (fun i hi => hearlier i (by omega))
      fun hlt => absurd hlt (Nat.lt_irrefl _),hfurther,hlast,(heard_of_fails hfails).1]
    rfl

theorem exec_completed {w : World} {p : Provider} (h : w.ai = some p) (prompt : String) :
    ∃ r, (completed prompt).exec w = (r,{ w with
      calls := w.calls ++ [.ai [Ai.textPart prompt] 0 lookupTokens]
      ai := some { p with script := (p.script.next Ai.emptyCompletion).2 } }) := by
  unfold completed Ai.complete
  rw [exec_bind_ok (Steps.exec_provider h)]
  rcases p.script.next Ai.emptyCompletion with ⟨reply,rest⟩
  cases reply with
  | completion text => exact ⟨.ok text,rfl⟩
  | failure message => exact ⟨.error (Ai.providerFault message),rfl⟩

theorem calls_behind {w : World} (h : w.ai.isSome = true) (prompt : String) (n : Nat) :
    ((completed prompt).behind w n).ai.isSome = true ∧ ((completed prompt).behind w n).calls =
      w.calls ++ List.replicate n (.ai [Ai.textPart prompt] 0 lookupTokens) := by
  induction n with
  | zero => exact ⟨h,(List.append_nil _).symm⟩
  | succ n ih =>
    obtain ⟨hai,hcalls⟩ := ih
    obtain ⟨p,hp⟩ := Option.isSome_iff_exists.1 hai
    obtain ⟨r,hr⟩ := exec_completed hp prompt
    unfold behind
    rw [hr]
    refine ⟨rfl,?_⟩
    simp only [hcalls,List.append_assoc,List.replicate_succ']

theorem exec_lookup {w : World} (h : w.ai.isSome = true) :
    (lookup a limit doc record).exec w = (lookupOf completed a limit doc record).exec w := by
  unfold lookup
  rw [exec_bind_ok (exec_get w)]
  simp only [Option.isNone_iff_eq_none,Option.isSome_iff_ne_none.1 h,if_false]

/-- A lookup of an address that is there asks whatever provider there is until a document is
replied, or until a number or the nesting of a reply goes beyond what is read, or until something
else than a collaborator fails, but never more often than it may; so does a lookup of a run, whose
questions are noted. What is asked for has to have a text, or nothing is asked at all. -/
theorem lookup_asks (hlimit : 1 ≤ limit) (hplace : address a doc record = .ok place)
    (hne : place ≠ "") :
    (∀ (σ : Type) (complete : String → Attempt σ String) (s : σ),
      (∀ f, wanted a doc = .error f →
        (lookupOf complete a limit doc record).exec s = (.error f,s)) ∧
      ∀ part, wanted a doc = .ok part → Questioned limit (complete (lookupPrompt place part)) s
        ((lookupOf complete a limit doc record).exec s)) ∧
    ∀ w : World, w.ai.isSome = true →
      (lookup a limit doc record).exec w = (lookupOf completed a limit doc record).exec w ∧
      ∀ prompt n, ((completed prompt).behind w n).calls =
        w.calls ++ List.replicate n (.ai [Ai.textPart prompt] 0 lookupTokens) := by
  refine ⟨fun σ complete s => ⟨fun f hf => ?_,fun part hpart => ?_⟩,fun w hw => ?_⟩
  · rw [exec_lookupOf hplace hne,hf]
  · exact lookupOf_questioned hlimit hplace hne hpart s
  · exact ⟨exec_lookup hw,fun prompt n => (calls_behind hw prompt n).2⟩

def hesitant : Attempt Nat String :=
  ExceptT.mk fun asked =>
    (match asked with
      | 0 => .error (Ai.providerFault "busy")
      | 1 => .ok "unknown"
      | _ => .ok "\x7b\"value\": \" NV \"\x7d",asked + 1)

/-- The third question is answered, and no further one is asked. -/
theorem lookup_asks_hesitant :
    let doc := Value.object [("addressFields",.list [.text "city"]),("lookupType",.text "state")]
    let record := Scope.ofValue (.object [("city",.text "Reno")])
    (1 : Int) ≤ 5 ∧ address Value.access doc record = .ok "Reno" ∧ "Reno" ≠ "" ∧
      (lookupOf (fun _ => hesitant) Value.access 5 doc record).exec 0 = (.ok (some "NV"),3) := by
  intro doc record
  have hlimit : (1 : Int) ≤ 5 := by decide
  have hplace : address Value.access doc record = .ok "Reno" := eq_ok_of_toOption (by decide +kernel)
  have hne : "Reno" ≠ "" := by decide
  obtain ⟨part,hpart⟩ : ∃ part, wanted Value.access doc = .ok part := ⟨_,rfl⟩
  have hquestioned := ((lookup_asks hlimit hplace hne).1 Nat (fun _ => hesitant) 0).2 part hpart
  have hfailing : Failing (hesitant.turn 0) 2 := by decide +kernel
  -- the value of the reply is a text, with blanks around it
  have hcheck : (Json.parse (Completion.withoutFences "\x7b\"value\": \" NV \"\x7d")).toOption.any
      (fun v => (answerOf v).asText.toOption == some " NV " && !(answerOf v).isNull) = true := by
    decide +kernel
  obtain ⟨v,hv,hshown⟩ := (Option.any_eq_true _ _).1 hcheck
  have hvalue : Json.parse (Completion.withoutFences "\x7b\"value\": \" NV \"\x7d") = .ok v :=
    eq_ok_of_toOption hv
  obtain ⟨htext,hknown⟩ := Bool.and_eq_true_iff.1 hshown
  obtain ⟨hasked,hanswers⟩ := hquestioned.settled 2 _ hfailing (.document hvalue)
  refine ⟨hlimit,hplace,hne,Prod.ext ?_ hasked⟩
  generalize ((lookupOf (fun _ => hesitant) Value.access 5 doc record).exec 0).1 = result at hanswers ⊢
  cases hanswers (by decide) with
  | unknown h ha =>
    rw [← says_iff.1 h,ha] at hknown
    cases hknown
  | known h _ ht =>
    rw [says_iff.1 h] at ht
    obtain rfl := Except.ok.inj (ht.symm.trans (eq_ok_of_toOption (eq_of_beq htext)))
    exact congrArg (fun t => Except.ok (some t)) (by decide : Text.trim " NV " = "NV")

end FieldFunction

end StepGraph
