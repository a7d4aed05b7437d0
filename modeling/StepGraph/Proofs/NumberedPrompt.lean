import StepGraph.Proofs.Selection

/-!
The numbers under which candidates are put to a provider. A candidate is shown with its fields
behind its number, so a reply that repeats the number of a candidate takes this candidate. A
candidate that has a field of that name itself is shown under what it has there.
-/
namespace StepGraph

open Attempt Work Value

/-- In every object of the value the names are distinct. -/
inductive Value.DistinctNames : Value → Prop
  | scalar (a : Scalar) : DistinctNames (.scalar a)
  | list {xs : List Value} (h : ∀ x ∈ xs, DistinctNames x) : DistinctNames (.list xs)
  | object {es : Entries Value} (hd : es.keys.Nodup) (h : ∀ e ∈ es, DistinctNames e.2) :
      DistinctNames (.object es)

theorem Value.distinctNames_hereditary : view.Hereditary DistinctNames where
  leaf a _ := .scalar a
  below v hv := by
    cases hv with
    | scalar a => simp [view,layer,Layer.below]
    | list h => exact h
    | object hd h =>
      intro y hy
      obtain ⟨e,he,rfl⟩ := List.mem_map.1 hy
      exact h e he

namespace Json

theorem readNumber_scalar {c next : Cursor} {v : Value} (h : readNumber c = .ok (v,next)) :
    ∃ a, v = .scalar a := by
  unfold readNumber at h
  simp only at h
  split at h
  · cases h
  · split at h
    · split at h <;> cases h
      exact ⟨_,rfl⟩
    · cases h
      exact ⟨_,rfl⟩

theorem readWord?_scalar {c next : Cursor} {v : Value} (h : readWord? c = some (v,next)) :
    ∃ a, v = .scalar a := by
  unfold readWord? at h
  obtain ⟨w,hw,he⟩ := Option.map_eq_some_iff.1 h
  cases he
  have hall : ∀ w ∈ words, ∃ a, w.2 = .scalar a := by simp [words]
  exact hall w (List.mem_of_find?_eq_some hw)

theorem readClosed_distinctNames : ReadClosed Value.DistinctNames where
  text s := .scalar _
  word h := by
    obtain ⟨a,rfl⟩ := readWord?_scalar h
    exact .scalar a
  number h := by
    obtain ⟨a,rfl⟩ := readNumber_scalar h
    exact .scalar a
  list h := .list h
  object hd h := .object hd h

end Json

namespace Match

variable {c : Value} {k : Nat} {source : Entries Value} {candidates : List Value}
  {keys : List String} {instruction : Value} {question : String}

/-- The fields that are shown of a candidate; one that is no object is shown as a value. -/
def shownFields : Value → Entries Value
  | .object es => es
  | c => [("value",c)]

def shownIndex (k : Nat) (c : Value) : Value := ((shownFields c).get? "_index").getD (.ofNat k)

def shownRecord (k : Nat) (c : Value) : Value :=
  .object (("_index",shownIndex k c) :: (shownFields c).erase "_index")

theorem shownFields_nodup (h : c.DistinctNames) : (shownFields c).keys.Nodup := by
  cases h with
  | scalar a => simp [shownFields,Entries.keys]
  | list h => simp [shownFields,Entries.keys]
  | object hd h => exact hd

theorem numberedEntry_eq (h : (shownFields c).keys.Nodup) (k : Nat) :
    numberedEntry k c = shownRecord k c := by
  cases c with
  | scalar a => rfl
  | list xs => rfl
  | object es =>
    have hd : (Entries.keys es).Nodup := h
    have hmerge : Entries.merge [("_index",.ofNat k)] es =
        ("_index",shownIndex k (.object es)) :: Entries.erase es "_index" :=
      Entries.merge_first hd (by simp [Entries.keys])
    exact congrArg Value.object hmerge

theorem numbered_eq (start : Nat) (h : ∀ c ∈ candidates, c.DistinctNames) :
    numbered start candidates = candidates.mapIdx fun k c => shownRecord (start + k) c := by
  induction candidates generalizing start with
  | nil => rfl
  | cons c rest ih =>
    obtain ⟨hc,hrest⟩ := List.forall_mem_cons.1 h
    rw [numbered,List.mapIdx_cons,numberedEntry_eq (shownFields_nodup hc),ih (start + 1) hrest]
    simp only [Nat.add_assoc,Nat.add_comm 1,Nat.add_zero]

theorem shownRecord_plain (h : "_index" ∉ (shownFields c).keys) (k : Nat) :
    shownIndex k c = .ofNat k ∧
      shownRecord k c = .object (("_index",.ofNat k) :: shownFields c) := by
  have hindex : shownIndex k c = .ofNat k := by
    unfold shownIndex
    rw [Entries.get?_of_not_mem h]
    rfl
  have herase : (shownFields c).erase "_index" = shownFields c := by
    refine List.filter_eq_self.2 fun e he => ?_
    have hne : e.1 ≠ "_index" := ne_of_mem_of_not_mem (List.mem_map_of_mem he) h
    simpa using hne
  exact ⟨hindex,by rw [shownRecord,hindex,herase]⟩

def Surrounds (f : String → String) : Prop := ∃ before after, ∀ s, f s = before ++ s ++ after

def Frames (r : String → Except Fault String) : Prop :=
  ∃ f, Surrounds f ∧ ∀ s t, r s = .ok t → t = f s

namespace Surrounds

variable {f : String → String}

theorem here (before : String) : Surrounds fun s => before ++ s := ⟨before,"",fun s => by simp⟩

theorem more (h : Surrounds f) (later : String) : Surrounds fun s => f s ++ later := by
  obtain ⟨before,after,hf⟩ := h
  exact ⟨before,after ++ later,fun s => by simp only [hf,String.append_assoc]⟩

end Surrounds

namespace Frames

variable {α : Type}

theorem ok {f : String → String} (h : Surrounds f) : Frames fun s => .ok (f s) :=
  ⟨f,h,fun _ _ ht => (Except.ok.inj ht).symm⟩

theorem error (e : Fault) : Frames fun _ => .error e := ⟨_,.here "",nofun⟩

theorem bind (r : Except Fault α) {g : α → String → Except Fault String}
    (h : ∀ x, Frames (g x)) : Frames fun s => r >>= fun x => g x s := by
  cases r with
  | error e => exact error e
  | ok x => exact h x

theorem ite (p : Prop) [Decidable p] {g g' : String → Except Fault String} (h : Frames g)
    (h' : Frames g') : Frames fun s => if p then g s else g' s := by
  by_cases hp : p
  · simpa [hp] using h
  · simpa [hp] using h'

end Frames

/-- What is said around the candidates depends on their number only. -/
theorem prompt_surrounds (source : Entries Value) (keys : List String) (instruction : Value)
    (n : Nat) :
    ∃ f, Surrounds f ∧ ∀ candidates question, candidates.length = n →
      prompt source candidates keys instruction = .ok question →
      question = f (Json.render Json.indented 0 (.list (numbered 0 candidates))) := by
  have framed {r : String → Except Fault String} (hr : ∀ candidates question,
      candidates.length = n → prompt source candidates keys instruction = .ok question →
        ∃ t, (Value.list (numbered 0 candidates)).json Json.indented = .ok t ∧ r t = .ok question)
      (h : Frames r) : ∃ f, Surrounds f ∧ ∀ candidates question, candidates.length = n →
        prompt source candidates keys instruction = .ok question →
        question = f (Json.render Json.indented 0 (.list (numbered 0 candidates))) := by
    obtain ⟨f,haround,hf⟩ := h
    refine ⟨f,haround,fun candidates question hn hq => ?_⟩
    obtain ⟨t,ht,hrt⟩ := hr candidates question hn hq
    rw [← (told_json _ _).eq_of_ok ht]
    exact hf t question hrt
  -- nothing but the text of the candidates depends on them; all else is put around it
  cases hsource : (Value.object source).json Json.indented with
  | error e =>
    refine framed (fun candidates question _ h => ?_) (.error e)
    unfold prompt at h
    rw [hsource] at h
    cases h
  | ok sourceText =>
    apply framed
    · intro candidates question hn h
      unfold prompt at h
      rw [hsource,hn] at h
      obtain ⟨x,hx,h⟩ := eq_ok_of_bind h
      cases hx
      obtain ⟨t,ht,h⟩ := eq_ok_of_bind h
      exact ⟨t,ht,h⟩
    · refine Frames.ite _ (.bind _ fun shown => ?_) ?_
      all_goals
        refine .ok ?_
        repeat refine .more ?_ _
        exact .here _

theorem writable_numberedEntry (hc : c.Writable) (hk : k < Json.writtenLimit) :
    (numberedEntry k c).Writable := by
  have hindex : (Value.ofNat k).Writable := writable_int.2 (by simpa using hk)
  cases c with
  | object es =>
    refine writable_object.2 fun e he => ?_
    rcases Entries.mem_merge he with he | he
    · obtain rfl := List.mem_singleton.1 he
      exact hindex
    · exact writable_object.1 hc e he
  | scalar a => exact writable_object.2 (by simpa using ⟨hindex,hc⟩)
  | list xs => exact writable_object.2 (by simpa using ⟨hindex,hc⟩)

theorem writable_numbered (start : Nat) (hc : ∀ c ∈ candidates, c.Writable)
    (hn : start + candidates.length ≤ Json.writtenLimit) :
    ∀ c ∈ numbered start candidates, c.Writable := by
  induction candidates generalizing start with
  | nil => simp [numbered]
  | cons c rest ih =>
    obtain ⟨hfirst,hrest⟩ := List.forall_mem_cons.1 hc
    rw [List.length_cons] at hn
    refine List.forall_mem_cons.2 ⟨writable_numberedEntry hfirst (by omega),?_⟩
    exact ih (start + 1) hrest (by omega)

theorem sayable_prompt (source : Entries Value) (candidates : List Value) (keys : List String)
    (instruction : Value) :
    Sayable ((Value.object source).Writable ∧ (∀ c ∈ candidates, c.Writable) ∧
      candidates.length ≤ Json.writtenLimit ∧ instruction.Writable)
      (prompt source candidates keys instruction) := by
  unfold prompt
  refine ((told_json _ _).sayable.mono And.left).bind fun sourceText _ => ?_
  have hlisted : (∀ c ∈ candidates, c.Writable) ∧ candidates.length ≤ Json.writtenLimit →
      (Value.list (numbered 0 candidates)).Writable := fun ⟨hc,hn⟩ =>
    writable_list.2 (writable_numbered 0 hc (by simpa using hn))
  refine ((told_json _ _).sayable.mono fun h => hlisted ⟨h.2.1,h.2.2.1⟩).bind fun listing _ => ?_
  extract_lets rest
  have asked (x : String) : Sayable ((Value.object source).Writable ∧
      (∀ c ∈ candidates, c.Writable) ∧ candidates.length ≤ Json.writtenLimit ∧
        instruction.Writable) (rest x) := .ok _
  split
  · exact ((told_display _).sayable.mono fun h => h.2.2.2).bind fun _ _ => asked _
  · exact asked _

theorem writable_resolveSource {fields : Value} {scope : Scope} {es : Entries Value}
    (h : resolveSource fields scope = .ok es) : (Value.object es).Writable := by
  unfold resolveSource at h
  obtain ⟨parts,-,h⟩ := eq_ok_of_bind h
  refine writable_object.2 (of_foldlM (P := fun done => ∀ e ∈ done, e.2.Writable) ?_ (by simp) h)
  intro done next f _ hnext hdone
  simp only at hnext
  split at hnext
  · cases hnext
    exact hdone
  · obtain ⟨text,-,hnext⟩ := eq_ok_of_bind hnext
    split at hnext
    · cases hnext
    · cases hnext
    · obtain ⟨label,-,hnext⟩ := eq_ok_of_bind hnext
      cases hnext
      intro e he
      rcases Entries.mem_put e he with he | rfl
      · exact hdone e he
      · exact writable_text text

end Match

namespace Steps

variable {run : Run} {node : Step Item} {config : Value} {l : Lookup} {w w₁ : World}
  {values : List Value}

theorem lookUp_source (config : Value) :
    Gives (fun l => (Value.object l.source).Writable) (lookUp run node config) := by
  refine lookUp_gives (Q := fun es => (Value.object es).Writable) ?_ fun _ _ _ _ _ h => h
  unfold resolveSource
  refine .bind fun scope => .of_bind fun source hsource => .bind fun _ => .bind fun _ => ?_
  exact .bind fun _ => .pure (Match.writable_resolveSource hsource)

theorem verify_placedReply {fields placed : Entries Value}
    (hplaced : withPlace fields = .ok placed)
    (hfields : ∀ es, fields.get? "matchedFields" ≠ some (.object es)) (keys : List String) :
    Match.verify placed values keys = .ok placed := by
  obtain ⟨hplace,hsame⟩ := withPlace_place hplaced
  rw [Match.verify_placed (Match.indexOf?_int hplace),hsame]
  split
  · rename_i es hes
    exact absurd hes (hfields es)
  · rfl

/-- What a provider is shown of the candidates, and what is taken where it repeats the number under
which one of them is shown. -/
structure ShownNumbered (run : Run) (node : Step Item) (w : World) (l : Lookup) (w₁ : World)
    (values : List Value) : Prop where
  candidates : ∃ body, answered? w = some body ∧
    Match.candidates Value.view body l.settings.arrayPath = .ok values
  spelled : ∃ n, List.Forall₂ (fun i v => w₁.store.Spells n v i) l.candidates values
  keyed : ∀ c ∈ values, c.DistinctNames
  prompted : values.length ≤ Json.writtenLimit → l.settings.instruction.Writable →
    ∃ question, Match.prompt l.source values (Match.identifiers (values.headD .null))
      l.settings.instruction = .ok question
  taken : ∀ (question : String) (k : Nat) (c : Value) (item : Item) (fields : Entries Value),
    Match.prompt l.source values (Match.identifiers (values.headD .null)) l.settings.instruction =
      .ok question →
    values[k]? = some c → l.candidates[k]? = some item →
    replied? w = some (.object fields) →
    fields.get? "matchIndex" = some (Match.shownIndex k c) →
    (∀ es, fields.get? "matchedFields" ≠ some (.object es)) →
    ∃ reply w₂, (ask l).exec w₁ = (.ok reply,w₂) ∧
      w₂.calls = w₁.calls ++
        [.ai [Ai.textPart question] Ai.defaultTemperature Ai.defaultMaxTokens] ∧
      Entries.get? reply "matchIndex" =
        some (.int ((placeNamed? (Match.shownIndex k c)).getD 0)) ∧
      (placeNamed? (Match.shownIndex k c) = some (k : Int) →
        l.taken? (some reply) = some item ∧
        ∀ o w', 2 ≤ values.length → (aiDecision run node).exec w = (.ok o,w') →
          ∃ x, Shows w'.store o item x)

theorem lookUp_numbered {n : Nat} (hconfig : w.store.Spells n config node.config)
    (hlookup : (lookUp run node config).exec w = (.ok l,w₁)) :
    ∃ values, ShownNumbered run node w l w₁ values := by
  obtain ⟨-,-,hai,hgrows,body,values,m,hbody,hvalues,hspells⟩ := lookUp_ok hlookup
  have hsource := lookUp_source config w l (congrArg Prod.fst hlookup)
  have hwritable : ∀ c ∈ values, c.Writable :=
    candidates_in writable_hereditary (Json.readClosed_writable.answered hbody) hvalues
  have hkeyed : ∀ c ∈ values, c.DistinctNames :=
    candidates_in distinctNames_hereditary (Json.readClosed_distinctNames.answered hbody) hvalues
  refine ⟨values,⟨body,hbody,hvalues⟩,⟨m,hspells⟩,hkeyed,fun hlength hinstruction => ?_,?_⟩
  · exact (Match.sayable_prompt _ _ _ _).exists_ok ⟨hsource,hwritable,hlength,hinstruction⟩
  intro question k c item fields hquestion hc hitem hreply hindex hfields
  have hreplied : replied? w₁ = some (.object fields) := (replied?_eq hai).trans hreply
  obtain ⟨reply,w₂,hask⟩ := exec_ask hspells hwritable hquestion hreplied
  obtain ⟨⟨sent,hsent,hcalls⟩,-,hchecked⟩ := ask_ok hspells hask
  obtain rfl : question = sent := Except.ok.inj (hquestion.symm.trans hsent)
  obtain ⟨replied,placed,hreply',hplace,hplaced,hverify⟩ := hchecked.checked
  obtain rfl : Value.object fields = replied := Option.some.inj (hreplied.symm.trans hreply')
  have hplaced : withPlace fields = .ok placed := hplaced
  rw [verify_placedReply hplaced hfields] at hverify
  obtain rfl : placed = reply := Except.ok.inj hverify
  have hfield : (Value.object fields).field "matchIndex" =
      (fields.get? "matchIndex").getD .null := rfl
  have hplace := hplace.place
  rw [hfield,hindex,Option.getD_some] at hplace
  refine ⟨placed,w₂,hask,hcalls,hplace,fun hnamed => ?_⟩
  have hcandidate : l.taken? (some placed) = some item := by
    have hk : k < l.candidates.length := (List.getElem?_eq_some_iff.1 hitem).1
    unfold Lookup.taken?
    dsimp only
    rw [hplace,hnamed]
    simpa [hk] using hitem
  refine ⟨hcandidate,fun o w' hmany h => ?_⟩
  -- the step that completes made this lookup and got this reply, as both are determined
  obtain ⟨d,w₃,hran⟩ := aiDecision_ok h
  obtain rfl : config = d.config := Except.ok.inj (hconfig.read.symm.trans hran.config)
  obtain ⟨rfl,rfl⟩ : l = d.lookup ∧ w₁ = w₃ := by
    simpa using hlookup.symm.trans hran.lookup
  have hasks : d.lookup.Asks := .inl (hspells.length_eq ▸ hmany)
  obtain ⟨r,hr⟩ := Option.isSome_iff_exists.1 (hran.ends.asks.2 hasks)
  obtain ⟨w₄,hask'⟩ := hran.ends.asked r hr
  obtain rfl : placed = r := by simpa using congrArg Prod.fst (hask.symm.trans hask')
  have hrecord : d.record? = some item := by rw [Decision.record?,hr]; exact hcandidate
  have hshows := hran.ends.shows
  rw [hrecord] at hshows
  exact ⟨_,hshows⟩

/-- In a prompt each candidate stands with its fields behind the number under which it is shown,
which is its place unless it has a field of that name. A reply that repeats the number of a candidate
takes this candidate if the number names its place. -/
theorem aiDecision_numbers (run : Run) (node : Step Item) :
    (∀ source keys instruction n, ∃ f, Match.Surrounds f ∧ ∀ candidates question,
      candidates.length = n → (∀ c ∈ candidates, Value.DistinctNames c) →
      Match.prompt source candidates keys instruction = .ok question →
      question = f (Json.render Json.indented 0 (.list (candidates.mapIdx Match.shownRecord)))) ∧
    (∀ k c, "_index" ∉ Entries.keys (Match.shownFields c) →
      Match.shownRecord k c = .object (("_index",.ofNat k) :: Match.shownFields c) ∧
        placeNamed? (Match.shownIndex k c) = some (k : Int)) ∧
    ∀ n config l w w₁, w.store.Spells n config node.config →
      (lookUp run node config).exec w = (.ok l,w₁) →
        ∃ values, ShownNumbered run node w l w₁ values := by
  refine ⟨fun source keys instruction n => ?_,fun k c hc => ?_,fun _ _ _ _ _ => lookUp_numbered⟩
  · obtain ⟨f,haround,hf⟩ := Match.prompt_surrounds source keys instruction n
    refine ⟨f,haround,fun candidates question hn hkeyed h => ?_⟩
    have hnumbered := Match.numbered_eq 0 hkeyed
    simp only [Nat.zero_add] at hnumbered
    rw [← hnumbered]
    exact hf candidates question hn h
  · obtain ⟨hindex,hrecord⟩ := Match.shownRecord_plain hc k
    rw [hindex]
    exact ⟨hrecord,rfl⟩

def hasOnly (name : String) : Value → Bool
  | .object [(k,_)] => k == name
  | _ => false

theorem shownIndex_hasOnly {c : Value} (h : hasOnly "k" c = true) (i : Nat) :
    Match.shownIndex i c = .ofNat i := by
  unfold hasOnly at h
  split at h
  · obtain rfl := eq_of_beq h
    exact (Match.shownRecord_plain (by simp [Match.shownFields,Entries.keys]) i).1
  · cases h

def namesSecond : Value → Bool
  | .object [(k,.int i)] => k == "matchIndex" && i == 1
  | _ => false

theorem eq_of_namesSecond {v : Value} (h : namesSecond v = true) :
    v = .object [("matchIndex",.int 1)] := by
  unfold namesSecond at h
  split at h
  · obtain ⟨hk,hi⟩ := Bool.and_eq_true_iff.1 h
    rw [eq_of_beq hk,eq_of_beq hi]
  · cases h

/-- The second of two records is taken where the provider repeats its number. -/
theorem aiDecision_numbers_second :
    ∃ (l : Lookup) (w₁ : World) (values : List Value) (item x : Item) (o : Outcome) (w' : World),
      (lookUp { context := .cell 0 } keyedStep (.object [("returnFieldPath",.text "k")])).exec
        twoRecords = (.ok l,w₁) ∧
      ShownNumbered { context := .cell 0 } keyedStep twoRecords l w₁ values ∧
      l.candidates[1]? = some item ∧
      (aiDecision { context := .cell 0 } keyedStep).exec twoRecords = (.ok o,w') ∧
      Shows w'.store o item x ∧
      (w'.store.read? item).bind (fun v => (v.field "k").text?) = some "B" := by
  have hspells : twoRecords.store.Spells 2 (.object [("returnFieldPath",.text "k")])
      keyedStep.config := .object (by decide) rfl (.cons (.leaf _ _) (.nil _))
  have hlook : ((lookUp { context := .cell 0 } keyedStep
    (.object [("returnFieldPath",.text "k")])).exec twoRecords).1.isOk = true := by decide +kernel
  have hok : ((aiDecision { context := .cell 0 } keyedStep).exec twoRecords).1.isOk = true := by
    decide +kernel
  have hrecord : (shown? ((aiDecision { context := .cell 0 } keyedStep).exec twoRecords)
      "matchedRecord").bind (fun v => (v.field "k").text?) = some "B" := by decide +kernel
  rcases hl : (lookUp { context := .cell 0 } keyedStep
    (.object [("returnFieldPath",.text "k")])).exec twoRecords with ⟨f | l,w₁⟩ <;> rw [hl] at hlook
  · cases hlook
  rcases h : (aiDecision { context := .cell 0 } keyedStep).exec twoRecords with ⟨f | o,w'⟩ <;>
    rw [h] at hok hrecord
  · cases hok
  obtain ⟨values,hnumbered⟩ :=
    (aiDecision_numbers { context := .cell 0 } keyedStep).2.2 _ _ _ _ _ hspells hl
  -- two records were answered, and the second is the one that is named
  have hvalues : values.map (hasOnly "k") = [true,true] := by
    obtain ⟨body,hbody,hvalues⟩ := hnumbered.candidates
    have hanswered : (answered? twoRecords).map
        (fun b => (Match.listed Value.view b).map (hasOnly "k")) = some [true,true] := by
      decide +kernel
    have hpath : l.settings.arrayPath = .text "" := by
      rw [(lookUp_ok hl).settings]
      rfl
    rw [hpath] at hvalues
    cases hvalues
    rw [hbody] at hanswered
    exact Option.some.inj hanswered
  obtain ⟨first,c,rfl⟩ : ∃ first c, values = [first,c] :=
    List.length_eq_two.1 (by simpa using congrArg List.length hvalues)
  have hc : hasOnly "k" c = true := by
    simp only [List.map_cons,List.cons.injEq] at hvalues
    exact hvalues.2.1
  have hreplied : replied? twoRecords = some (.object [("matchIndex",.int 1)]) := by
    have hcheck : (replied? twoRecords).any namesSecond = true := by decide +kernel
    obtain ⟨v,hv,hnames⟩ := (Option.any_eq_true _ _).1 hcheck
    rw [hv,eq_of_namesSecond hnames]
  obtain ⟨n,hall⟩ := hnumbered.spelled
  obtain ⟨item₀,item,hitems⟩ := List.length_eq_two.1 hall.length_eq
  have hlimit : 2 ≤ Json.writtenLimit :=
    Nat.le_trans (show 2 ≤ tenTo 1 by decide) (tenTo_mono (by decide))
  have hinstruction : l.settings.instruction.Writable := by
    rw [(lookUp_ok hl).settings]
    rfl
  obtain ⟨question,hquestion⟩ := hnumbered.prompted hlimit hinstruction
  have hindex := shownIndex_hasOnly hc 1
  obtain ⟨reply,w₂,-,-,-,htaken⟩ := hnumbered.taken question 1 c item _ hquestion rfl
    (by rw [hitems]; rfl) hreplied (by rw [hindex]; rfl) (by simp [Entries.get?])
  obtain ⟨-,hshows⟩ := htaken (by rw [hindex]; rfl)
  obtain ⟨x,hx⟩ := hshows o w' (Nat.le_refl 2) h
  rw [(shown?_of_shows hx).1] at hrecord
  exact ⟨l,w₁,_,item,x,o,w',rfl,hnumbered,by rw [hitems]; rfl,rfl,hx,hrecord⟩

end Steps

end StepGraph
