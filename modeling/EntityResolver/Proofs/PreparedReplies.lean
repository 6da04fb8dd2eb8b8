import EntityResolver.Proofs.Selector.BasicForm
import EntityResolver.Proofs.Selector.Same
import EntityResolver.Proofs.Value.Matched
import EntityResolver.Remote.Script
import Mathlib.Data.List.Perm.Subperm

/-!
# Prepared replies

A strict script compares a call with the calls that its expectations name, and uses up the first one
that matches. Matching is an equivalence of calls. An expectation that matches two calls therefore
shows that these match each other, so calls that do not match take nothing from each other, and
their order does not count.
-/

set_option autoImplicit false

namespace EntityResolver

/-- Two values of a parameter are equal, or they are selectors of the same fields where the
parameter carries selectors. -/
def AlikeUnder (name one other : String) : Prop :=
  one = other ∨ (name = fieldsParam ∧ ∃ first second, Selector.parseBasic one = .ok first ∧
    Selector.parseBasic other = .ok second ∧ first.same second = true)

structure Call.Matches (first second : Call) : Prop where
  path : first.path = second.path
  params : ∀ name,
    Option.Rel (AlikeUnder name) (first.params.get? name) (second.params.get? name)

def Expectation.call (expectation : Expectation) : Call :=
  ⟨expectation.path, expectation.params⟩

theorem Selector.distinct_of_parseBasic {text : String} {selector : Selector}
    (done : parseBasic text = .ok selector) : selector.Distinct :=
  (basic_of_parseBasic done).isPlain.1.distinct

variable {name one other : String} {first second call : Call} {expectation : Expectation}

theorem alikeUnder_equivalence (name : String) : Equivalence (AlikeUnder name) where
  refl one := .inl rfl
  symm := by
    rintro one other (rfl | ⟨carries, first, second, read, readToo, same⟩)
    · exact .inl rfl
    · exact .inr ⟨carries, second, first, readToo, read, Selector.same_symm
        (Selector.distinct_of_parseBasic read) (Selector.distinct_of_parseBasic readToo) same⟩
  trans := by
    rintro one other third (rfl | ⟨carries, first, second, read, readToo, same⟩) right
    · exact right
    · rcases right with rfl | ⟨_, again, last, readAgain, readLast, sameToo⟩
      · exact .inr ⟨carries, first, second, read, readToo, same⟩
      · cases readToo.symm.trans readAgain
        exact .inr ⟨carries, first, last, read, readLast, Selector.same_trans
          (Selector.distinct_of_parseBasic read) (Selector.distinct_of_parseBasic readToo)
          (Selector.distinct_of_parseBasic readLast) same sameToo⟩

theorem optionRel_equivalence {α : Type} {related : α → α → Prop} (equal : Equivalence related) :
    Equivalence (Option.Rel related) where
  refl
    | none => .none
    | some one => .some (equal.refl one)
  symm
    | .none => .none
    | .some pair => .some (equal.symm pair)
  trans
    | .none, .none => .none
    | .some left, .some right => .some (equal.trans left right)

theorem matches_equivalence : Equivalence Call.Matches where
  refl _ := ⟨rfl, fun name => (optionRel_equivalence (alikeUnder_equivalence name)).refl _⟩
  symm same := ⟨same.path.symm, fun name =>
    (optionRel_equivalence (alikeUnder_equivalence name)).symm (same.params name)⟩
  trans left right := ⟨left.path.trans right.path, fun name =>
    (optionRel_equivalence (alikeUnder_equivalence name)).trans (left.params name)
      (right.params name)⟩

namespace Script

/-- Texts that are compared as selectors are equal, or both are read and select the same. -/
theorem sameFields_iff :
    sameFields one other = true ↔ one = other ∨ ∃ first second,
      Selector.parseBasic one = .ok first ∧ Selector.parseBasic other = .ok second ∧
        first.same second = true := by
  unfold sameFields
  cases read : Selector.parseBasic one with
  | error _ => simp
  | ok first =>
      cases readToo : Selector.parseBasic other with
      | error _ => simp
      | ok second =>
          simp only [Except.ok.injEq, exists_and_left, exists_eq_left']
          refine ⟨.inr, ?_⟩
          rintro (rfl | same)
          · cases read.symm.trans readToo
            exact Selector.same_refl (Selector.distinct_of_parseBasic read)
          · exact same

theorem admitsParam_iff {params : Params} {value : String} :
    admitsParam params name value = true ↔
      ∃ wanted, params.get? name = some wanted ∧ AlikeUnder name wanted value := by
  unfold admitsParam AlikeUnder
  cases params.get? name with
  | none => simp
  | some wanted => by_cases carries : name = fieldsParam <;> simp [carries, sameFields_iff]

/-- What a strict script checks is that the call matches the one that the expectation names. -/
theorem admitsExactly_iff (distinct : expectation.params.Distinct)
    (distinctToo : call.params.Distinct) :
    admitsExactly expectation call = true ↔ expectation.call.Matches call := by
  simp only [admitsExactly, Bool.and_eq_true, beq_iff_eq, List.all_eq_true, Prod.forall,
    admitsParam_iff]
  constructor
  · rintro ⟨⟨path, sizes⟩, admitted⟩
    have included : call.params.keys ⊆ expectation.params.keys := by
      intro name listed
      obtain ⟨⟨_, value⟩, member, rfl⟩ := List.mem_map.mp listed
      obtain ⟨wanted, found, _⟩ := admitted _ value member
      exact List.mem_map.mpr ⟨_, OrderedMap.mem_of_get? found, rfl⟩
    have names : call.params.keys.Perm expectation.params.keys :=
      (distinctToo.subperm included).perm_of_length_le
        (by simpa [OrderedMap.keys] using Nat.le_of_eq sizes)
    refine ⟨path, fun name => ?_⟩
    cases found : call.params.get? name with
    | some value =>
        obtain ⟨wanted, expected, alike⟩ := admitted name value (OrderedMap.mem_of_get? found)
        exact expected ▸ .some alike
    | none =>
        have absent : name ∉ expectation.params.keys := by
          rw [← names.mem_iff, ← OrderedMap.isSome_get?_iff, found]
          exact Bool.false_ne_true
        rw [← OrderedMap.isSome_get?_iff, Option.not_isSome_iff_eq_none] at absent
        rw [show expectation.call.params.get? name = none from absent]
        exact .none
  · rintro ⟨path, alike⟩
    have names : call.params.keys.Perm expectation.params.keys := by
      refine (List.perm_ext_iff_of_nodup distinctToo distinct).mpr fun name => ?_
      rw [← OrderedMap.isSome_get?_iff, ← OrderedMap.isSome_get?_iff]
      rcases optionRel_cases (alike name) with ⟨absent, absentToo⟩ | ⟨_, _, found, foundToo, _⟩
      · simp [show expectation.params.get? name = none from absent, absentToo]
      · simp [show expectation.params.get? name = some _ from found, foundToo]
    refine ⟨⟨path, by simpa [OrderedMap.keys] using names.length_eq.symm⟩,
      fun name value member => ?_⟩
    have found := (OrderedMap.get?_eq_some_iff distinctToo).mpr member
    have pair := alike name
    rw [found] at pair
    rcases optionRel_cases pair with ⟨_, absurd⟩ | ⟨wanted, _, expected, same, alike⟩
    · cases absurd
    · cases same
      exact ⟨wanted, expected, alike⟩

variable {script other : Script} {policy : Policy} {pending : List Expectation}

theorem take?_eq : take? policy call pending =
    (pending.find? (policy.admits · call)).map
      (·, pending.eraseP (policy.admits · call)) := by
  induction pending with
  | nil => rfl
  | cons expectation rest inductionHypothesis =>
      rw [take?, List.find?_cons, List.eraseP_cons, inductionHypothesis]
      cases policy.admits expectation call with
      | true => rfl
      | false => simp [Function.comp_def]

def replyTo (script : Script) (call : Call) : Reply :=
  (script.pending.find? (script.policy.admits · call)).elim
    (.error (.unexpected (script.policy.refusal call))) Expectation.reply

theorem answer_eq (script : Script) (call : Call) :
    script.answer call = (script.replyTo call,
      { script with
        pending := script.pending.eraseP (script.policy.admits · call)
        calls := script.calls ++ [call] }) := by
  unfold answer replyTo
  rw [take?_eq]
  cases found : script.pending.find? (script.policy.admits · call) with
  | some expectation => rfl
  | none =>
      rw [List.eraseP_of_forall_not (List.find?_eq_none.mp found)]
      rfl

theorem policy_answer (script : Script) (call : Call) :
    (script.answer call).2.policy = script.policy := by
  rw [answer_eq]

inductive Answers : List Expectation → Call → Reply → List Expectation → Prop where
  /-- No earlier expectation matches the call. -/
  | served {call : Call} {before behind : List Expectation} {expectation : Expectation}
      (earlier : ∀ other ∈ before, ¬ other.call.Matches call)
      (named : expectation.call.Matches call) :
      Answers (before ++ expectation :: behind) call expectation.reply (before ++ behind)
  | refused {call : Call} {pending : List Expectation}
      (unnamed : ∀ other ∈ pending, ¬ other.call.Matches call) :
      Answers pending call (.error (.unexpected (Policy.strict.refusal call))) pending

/-- A script that compares calls strictly and expects no parameter twice. -/
structure IsStrict (script : Script) : Prop where
  policy : script.policy = .strict
  distinct : ∀ expectation ∈ script.pending, expectation.params.Distinct

theorem IsStrict.admits_iff (strict : script.IsStrict) (member : expectation ∈ script.pending)
    (distinct : call.params.Distinct) :
    script.policy.admits expectation call = true ↔ expectation.call.Matches call := by
  rw [strict.policy]
  exact admitsExactly_iff (strict.distinct _ member) distinct

theorem IsStrict.answer (strict : script.IsStrict) (call : Call) :
    (script.answer call).2.IsStrict := by
  rw [answer_eq]
  exact ⟨strict.policy, fun expectation member =>
    strict.distinct _ (List.mem_of_mem_eraseP member)⟩

theorem IsStrict.answers (strict : script.IsStrict) (distinct : call.params.Distinct) :
    Answers script.pending call (script.answer call).1 (script.answer call).2.pending := by
  rw [answer_eq]
  dsimp only [replyTo]
  cases found : script.pending.find? (script.policy.admits · call) with
  | none =>
      have none := List.find?_eq_none.mp found
      rw [List.eraseP_of_forall_not none, strict.policy]
      exact .refused fun other member =>
        mt (strict.admits_iff member distinct).mpr (none other member)
  | some expectation =>
      obtain ⟨admits, before, behind, parts, earlier⟩ := List.find?_eq_some_iff_append.mp found
      have unnamed : ∀ other ∈ before, ¬ script.policy.admits other call = true := by
        simpa using earlier
      rw [parts, List.eraseP_append_right _ unnamed,
        List.eraseP_cons_of_pos (p := (script.policy.admits · call)) admits]
      refine .served (fun other member => ?_) ?_
      · exact mt (strict.admits_iff (by simp [parts, member]) distinct).mpr (unnamed other member)
      · exact (strict.admits_iff (by simp [parts]) distinct).mp admits

/-- An expectation that admits neither of two calls together: what one call takes, the other does
not find. -/
theorem find?_eraseP_of_apart {taken wanted : Expectation → Bool}
    (apart : ∀ expectation ∈ pending, ¬ taken expectation = true ∨ ¬ wanted expectation = true) :
    (pending.eraseP taken).find? wanted = pending.find? wanted := by
  induction pending with
  | nil => rfl
  | cons expectation rest inductionHypothesis =>
      obtain ⟨here, apart⟩ := List.forall_mem_cons.mp apart
      rw [List.eraseP_cons]
      cases takes : taken expectation with
      | true => simp [here.resolve_left (not_not_intro takes)]
      | false => simp [List.find?_cons, inductionHypothesis apart]

theorem IsStrict.apart (strict : script.IsStrict) (distinct : first.params.Distinct)
    (distinctToo : second.params.Distinct) (differ : ¬ first.Matches second) :
    ∀ expectation ∈ script.pending, ¬ script.policy.admits expectation first = true ∨
      ¬ script.policy.admits expectation second = true := by
  intro expectation member
  rw [strict.admits_iff member distinct, strict.admits_iff member distinctToo, ← not_and_or]
  rintro ⟨named, namedToo⟩
  exact differ (matches_equivalence.trans (matches_equivalence.symm named) namedToo)

theorem IsStrict.answer_after (strict : script.IsStrict) (distinct : first.params.Distinct)
    (distinctToo : second.params.Distinct) (differ : ¬ first.Matches second) :
    ((script.answer first).2.answer second).1 = (script.answer second).1 := by
  simp only [answer_eq, replyTo]
  rw [find?_eraseP_of_apart (strict.apart distinct distinctToo differ)]

/-- Two calls that do not match leave the same expectations in either order. -/
theorem IsStrict.pending_comm (strict : script.IsStrict) (distinct : first.params.Distinct)
    (distinctToo : second.params.Distinct) (differ : ¬ first.Matches second) :
    ((script.answer first).2.answer second).2.pending =
      ((script.answer second).2.answer first).2.pending := by
  simp only [answer_eq]
  exact List.eraseP_comm (strict.apart distinct distinctToo differ)

def replies (script : Script) : List Call → List Reply
  | [] => []
  | call :: rest => (script.answer call).1 :: (script.answer call).2.replies rest

/-- The replies to a row of calls, each taken from the expectations that the calls before it
left. -/
inductive Replays : List Expectation → List Call → List Reply → List Expectation → Prop where
  | nil (pending : List Expectation) : Replays pending [] [] pending
  | cons {pending middle rest : List Expectation} {call : Call} {calls : List Call} {reply : Reply}
      {replies : List Reply} (answers : Answers pending call reply middle)
      (more : Replays middle calls replies rest) :
      Replays pending (call :: calls) (reply :: replies) rest

theorem after_cons (script : Script) (call : Call) (calls : List Call) :
    script.after (call :: calls) = (script.answer call).2.after calls := rfl

theorem after_append (script : Script) (calls later : List Call) :
    script.after (calls ++ later) = (script.after calls).after later :=
  List.foldl_append

theorem replies_append (script : Script) (calls later : List Call) :
    script.replies (calls ++ later) =
      script.replies calls ++ (script.after calls).replies later := by
  induction calls generalizing script with
  | nil => rfl
  | cons call rest inductionHypothesis =>
      rw [List.cons_append, replies, replies, inductionHypothesis, after_cons, List.cons_append]

theorem replies_concat (script : Script) (earlier : List Call) (call : Call) :
    script.replies (earlier ++ [call]) = script.replies earlier ++ [script.remote earlier call] :=
  replies_append script earlier [call]

theorem length_replies (script : Script) (calls : List Call) :
    (script.replies calls).length = calls.length := by
  induction calls generalizing script with
  | nil => rfl
  | cons call rest inductionHypothesis =>
      rw [replies, List.length_cons, inductionHypothesis, List.length_cons]

theorem calls_after (script : Script) (calls : List Call) :
    (script.after calls).calls = script.calls ++ calls := by
  induction calls generalizing script with
  | nil => exact (List.append_nil _).symm
  | cons call rest inductionHypothesis =>
      rw [after_cons, inductionHypothesis, answer_eq, List.append_assoc]
      rfl

/-- The calls that were made do not count for what follows. -/
theorem continues_congr (policies : script.policy = other.policy)
    (pending : script.pending = other.pending) (calls : List Call) :
    script.replies calls = other.replies calls ∧
      (script.after calls).pending = (other.after calls).pending := by
  induction calls generalizing script other with
  | nil => exact ⟨rfl, pending⟩
  | cons call rest inductionHypothesis =>
      have same : (script.answer call).1 = (other.answer call).1 := by
        simp only [answer_eq, replyTo, policies, pending]
      have next : (script.answer call).2.pending = (other.answer call).2.pending := by
        simp only [answer_eq, policies, pending]
      obtain ⟨replies, left⟩ := inductionHypothesis (by simpa only [policy_answer]) next
      exact ⟨congrArg₂ List.cons same replies, left⟩

theorem IsStrict.after (strict : script.IsStrict) (calls : List Call) :
    (script.after calls).IsStrict := by
  induction calls generalizing script with
  | nil => exact strict
  | cons call rest inductionHypothesis => exact inductionHypothesis (strict.answer call)

theorem IsStrict.replays (strict : script.IsStrict) {calls : List Call}
    (distinct : ∀ call ∈ calls, call.params.Distinct) :
    Replays script.pending calls (script.replies calls) (script.after calls).pending := by
  induction calls generalizing script with
  | nil => exact .nil _
  | cons call rest inductionHypothesis =>
      obtain ⟨here, distinct⟩ := List.forall_mem_cons.mp distinct
      exact .cons (strict.answers here) (inductionHypothesis (strict.answer call) distinct)

/-- Two calls that do not match may change places, and so do their replies; nothing else changes. -/
theorem IsStrict.replies_swap (strict : script.IsStrict) (distinct : first.params.Distinct)
    (distinctToo : second.params.Distinct) (differ : ¬ first.Matches second) (later : List Call) :
    ∃ one other behind, script.replies (first :: second :: later) = one :: other :: behind ∧
      script.replies (second :: first :: later) = other :: one :: behind ∧
      (script.after (first :: second :: later)).pending =
        (script.after (second :: first :: later)).pending := by
  obtain ⟨behind, left⟩ := continues_congr (by simp only [policy_answer])
    (strict.pending_comm distinct distinctToo differ) later
  refine ⟨(script.answer first).1, (script.answer second).1,
    ((script.answer first).2.answer second).2.replies later, ?_, ?_, left⟩
  · rw [replies, replies, strict.answer_after distinct distinctToo differ]
  · rw [replies, replies, behind, strict.answer_after distinctToo distinct
      fun same => differ (matches_equivalence.symm same)]

/-- Matching is an equivalence of calls, and is what a strict script compares calls by. Every row of
calls is answered one by one: a call gets the reply of the first of the remaining expectations that
it matches, which is used up alone, or is refused and leaves them all; and every call is recorded.
If two neighbours of the row do not match, they can be made in either order: each gets the same
reply, and so do the calls around them, and the same expectations remain. -/
theorem replays_prepared (strict : script.IsStrict) :
    Equivalence Call.Matches ∧
    (∀ (expectation : Expectation) (call : Call), expectation.params.Distinct →
      call.params.Distinct →
      (Policy.strict.admits expectation call = true ↔ expectation.call.Matches call)) ∧
    ∀ calls : List Call, (∀ call ∈ calls, call.params.Distinct) →
      Replays script.pending calls (script.replies calls) (script.after calls).pending ∧
      (script.after calls).calls = script.calls ++ calls ∧
      ∀ earlier first second later, calls = earlier ++ first :: second :: later →
        ¬ first.Matches second →
        ∃ before one other behind, before.length = earlier.length ∧
          script.replies calls = before ++ one :: other :: behind ∧
          script.replies (earlier ++ second :: first :: later) = before ++ other :: one :: behind ∧
          (script.after calls).pending =
            (script.after (earlier ++ second :: first :: later)).pending := by
  refine ⟨matches_equivalence,
    fun _ _ distinct distinctToo => admitsExactly_iff distinct distinctToo,
    fun calls distinct => ⟨strict.replays distinct, calls_after script calls, ?_⟩⟩
  rintro earlier first second later rfl differ
  obtain ⟨one, other, behind, straight, swapped, left⟩ := (strict.after earlier).replies_swap
    (distinct first (by simp)) (distinct second (by simp)) differ later
  refine ⟨script.replies earlier, one, other, behind, length_replies script earlier, ?_, ?_, ?_⟩
  · rw [replies_append, straight]
  · rw [replies_append, swapped]
  · rw [after_append, after_append, left]

end Script

namespace Rooms

def room (fields : String) : Call :=
  ⟨"services/geo/room", [("room_id", "5"), ("fields", fields)]⟩

/-- The room, with its parameters and their fields in another order. -/
def turned : Call :=
  ⟨"services/geo/room", [("fields", "building_id|number"), ("room_id", "5")]⟩

def building : Call := ⟨"services/geo/building", [("building_id", "BG")]⟩

def prepared (call : Call) (answer : String) : Expectation :=
  ⟨call.path, call.params, .ok (.str answer)⟩

def script : Script :=
  .new .strict [prepared (room "number|building_id|") "other",
    prepared (room "number|building_id") "first", prepared building "hall",
    prepared turned "second"]

def calls : List Call := [turned, building, room "number|building_id", building]

/-- The text that is no selector is matched by no call, and the building has no second reply. -/
theorem replays_prepared_rooms :
    (script.IsStrict ∧ (∀ call ∈ calls, call.params.Distinct) ∧ ¬ turned.Matches building) ∧
    Script.Replays script.pending calls
      [.ok (.str "first"), .ok (.str "hall"), .ok (.str "second"),
        .error (.unexpected (Script.Policy.strict.refusal building))]
      (script.after calls).pending ∧
    (script.after calls).pending.map Expectation.call = [room "number|building_id|"] ∧
    script.replies [building, turned, room "number|building_id", building] =
      [.ok (.str "hall"), .ok (.str "first"), .ok (.str "second"),
        .error (.unexpected (Script.Policy.strict.refusal building))] := by
  have expected : ∀ expectation ∈ script.pending, (OrderedMap.keys expectation.params).Nodup := by
    decide
  have strict : script.IsStrict := ⟨rfl, expected⟩
  have distinct : ∀ call ∈ calls, (OrderedMap.keys call.params).Nodup := by decide
  have differ : ¬ turned.Matches building := fun same => absurd same.path (by decide)
  have unread : ∀ call ∈ calls,
      Script.admitsExactly (prepared (room "number|building_id|") "other") call = false := by
    decide +kernel
  have first :
      Script.admitsExactly (prepared (room "number|building_id") "first") turned = true := by
    decide +kernel
  have hall : Script.admitsExactly (prepared building "hall") building = true := by decide +kernel
  have second :
      Script.admitsExactly (prepared turned "second") (room "number|building_id") = true := by
    decide +kernel
  have replies : script.replies calls = [.ok (.str "first"), .ok (.str "hall"), .ok (.str "second"),
      .error (.unexpected (Script.Policy.strict.refusal building))] := by
    simp only [calls, List.forall_mem_cons] at unread
    simp [calls, script, Script.new, Script.replies, Script.answer_eq, Script.replyTo,
      Script.Policy.strict, unread, first, hall, second]
    exact ⟨rfl, rfl, rfl⟩
  obtain ⟨_, _, every⟩ := Script.replays_prepared strict
  obtain ⟨replays, _, swaps⟩ := every calls distinct
  rw [replies] at replays
  refine ⟨⟨strict, distinct, differ⟩, replays, by decide +kernel, ?_⟩
  obtain ⟨before, one, other, behind, size, straight, swapped, _⟩ :=
    swaps [] turned building [room "number|building_id", building] rfl differ
  cases List.length_eq_zero_iff.mp size
  rw [replies] at straight
  cases straight
  exact swapped

end Rooms

end EntityResolver
