import Mathlib
import SnippetRunner.Delegate.Remote
import SnippetRunner.Proofs.Success

/-!
What becomes of a block that is run by a service on the network. Whatever comes back, the run
ends with an outcome that is good exactly with the exit code zero, or with the failure which says
that the service could not be used. Only an address that cannot be read, a number without bound
and values that are too deep inside each other get past this.
-/
namespace SnippetRunner

open Success (result)

namespace Json

/-- Only the infinite numbers denote no whole one for want of a bound. -/
theorem toWhole_eq_infinite {v : Json} :
    v.toWhole = .error .infinite ↔ ∃ negative, v = .float (.infinite negative) := by
  constructor
  · intro h
    cases v with
    | float x =>
      cases x with
      | finite negative mantissa exponent => cases h
      | infinite negative => exact ⟨negative, rfl⟩
      | notANumber => cases h
    | str s =>
      rw [toWhole] at h
      cases hread : Text.parseInteger s <;> simp [hread, Except.mapError] at h
    | _ => cases h
  · rintro ⟨negative, rfl⟩
    rfl

end Json

namespace Remote

/-- How a call is to end: with an outcome whose status tells its exit code, or with the failure
that the service could not be used. -/
inductive Proper (url : String) : Except Failure Outcome → Prop
  | outcome {o : Outcome} : (o.status = .ok ↔ o.exitCode = 0) → Proper url (.ok o)
  | unusable (reason : String) : Proper url (.error (.spawnFailed url reason))

/-- The number under a key of an answer, which is zero when it is missing. -/
def number (answer : Json) (key : String) : Json := (answer.member? key).getD (.int 0)

/-- What an answer has to be like for its failure to be another one. -/
inductive Unbounded (depth : Nat) : HttpResult → Failure → Prop
  | nesting {status : Nat} {body text : String} {inList : Bool} :
    Network.isSuccess status = true →
    Network.readBody depth body = .error (.notJson (.tooDeep inList) text) →
    Unbounded depth (.response status body) (.notJson (.tooDeep inList) text)
  | exitCode {status : Nat} {body : String} {members : List (String × Json)} {negative : Bool} :
    Network.isSuccess status = true → Network.readBody depth body = .ok (.obj members) →
    number (.obj members) "exit_code" = .float (.infinite negative) →
    Unbounded depth (.response status body) .infiniteNumber
  /-- The length of the run is looked at only after the exit code was found to be whole. -/
  | duration {status : Nat} {body : String} {members : List (String × Json)} {code : Int}
      {negative : Bool} :
    Network.isSuccess status = true → Network.readBody depth body = .ok (.obj members) →
    (number (.obj members) "exit_code").toWhole = .ok code →
    number (.obj members) "duration_ms" = .float (.infinite negative) →
    Unbounded depth (.response status body) .infiniteNumber

variable {depth : Nat} {url body text : String} {f : Failure}
  {members : List (String × Json)} {fault : WholeFault}

theorem not_proper_of_unbounded {answer : HttpResult} (h : Unbounded depth answer f) :
    ¬ Proper url (.error f) := by
  intro hproper
  cases h <;> cases hproper

/-- A number is at fault for what it is, or it is infinite. -/
theorem numberFailure_cases (url : String) (fault : WholeFault) :
    Proper url (.error (numberFailure url fault)) ∨
      fault = .infinite ∧ numberFailure url fault = .infiniteNumber := by
  cases fault with
  | refused reason => exact .inl (.unusable _)
  | infinite => exact .inr ⟨rfl, rfl⟩

/-- The body of an answer is no text of a value, or its values are too deep. -/
theorem readBody_error (url : String) (h : Network.readBody depth body = .error f) :
    Proper url (.error (bodyFailure url f)) ∨
      ∃ inList text, f = .notJson (.tooDeep inList) text ∧ bodyFailure url f = f := by
  unfold Network.readBody at h
  dsimp only at h
  generalize Json.readUnmarked _ _ = read at h
  cases read with
  | ok v => cases h
  | error e =>
    cases h
    cases e with
    | tooDeep inList => exact .inr ⟨inList, _, rfl, rfl⟩
    | _ => exact .inl (.unusable _)

section Numbers

variable {code duration : Int}

theorem outcomeOf_of_code (h : (number (.obj members) "exit_code").toWhole = .error fault) :
    outcomeOf url (.obj members) = .error (numberFailure url fault) := by
  unfold number at h
  simp only [outcomeOf, h]
  rfl

theorem outcomeOf_of_duration (hcode : (number (.obj members) "exit_code").toWhole = .ok code)
    (h : (number (.obj members) "duration_ms").toWhole = .error fault) :
    outcomeOf url (.obj members) = .error (numberFailure url fault) := by
  unfold number at hcode h
  simp only [outcomeOf, hcode, h]
  rfl

/-- Two whole numbers make an outcome. -/
theorem outcomeOf_of_whole (url : String)
    (hcode : (number (.obj members) "exit_code").toWhole = .ok code)
    (hduration : (number (.obj members) "duration_ms").toWhole = .ok duration) :
    ∃ o, outcomeOf url (.obj members) = .ok o ∧ o.exitCode = code ∧
      (o.status = .ok ↔ o.exitCode = 0) := by
  unfold number at hcode hduration
  simp only [outcomeOf, hcode, hduration]
  refine ⟨_, rfl, rfl, ?_⟩
  by_cases hzero : code = 0 <;> simp [hzero]

end Numbers

section Answers

variable {answer : HttpResult} {status : Nat}

theorem interpret_of_success (depth : Nat) (url : String) (h : Network.isSuccess status = true)
    (body : String) : interpret depth url (.response status body) =
      ((Network.readBody depth body).mapError (bodyFailure url)).bind (outcomeOf url) := by
  simp only [interpret, Network.successBody, h]
  rfl

/-- An object tells an outcome, or one of its numbers is at fault. -/
theorem outcomeOf_ends (url : String) (hsuccess : Network.isSuccess status = true)
    (hread : Network.readBody depth body = .ok (.obj members)) :
    Proper url (outcomeOf url (.obj members)) ∨
      ∃ f, Unbounded depth (.response status body) f ∧ outcomeOf url (.obj members) = .error f := by
  cases hcode : (number (.obj members) "exit_code").toWhole with
  | error fault =>
    rw [outcomeOf_of_code hcode]
    rcases numberFailure_cases url fault with hproper | ⟨rfl, hescapes⟩
    · exact .inl hproper
    · obtain ⟨negative, hnumber⟩ := Json.toWhole_eq_infinite.mp hcode
      exact .inr ⟨_, .exitCode hsuccess hread hnumber, congrArg Except.error hescapes⟩
  | ok code =>
    cases hduration : (number (.obj members) "duration_ms").toWhole with
    | error fault =>
      rw [outcomeOf_of_duration hcode hduration]
      rcases numberFailure_cases url fault with hproper | ⟨rfl, hescapes⟩
      · exact .inl hproper
      · obtain ⟨negative, hnumber⟩ := Json.toWhole_eq_infinite.mp hduration
        exact .inr ⟨_, .duration hsuccess hread hcode hnumber, congrArg Except.error hescapes⟩
    | ok duration =>
      obtain ⟨o, ho, -, hstatus⟩ := outcomeOf_of_whole url hcode hduration
      rw [ho]
      exact .inl (.outcome hstatus)

/-- An answer is understood, is refused as one that cannot be, or its failure escapes. -/
theorem interpret_ends (depth : Nat) (url : String) (answer : HttpResult) :
    Proper url (interpret depth url answer) ∨
      ∃ f, Unbounded depth answer f ∧ interpret depth url answer = .error f := by
  cases answer with
  | failed reason => exact .inl (.unusable reason)
  | response status body =>
    cases hsuccess : Network.isSuccess status with
    | false =>
      left
      simp only [interpret, Network.successBody, hsuccess]
      exact .unusable _
    | true =>
      rw [interpret_of_success depth url hsuccess]
      cases hread : Network.readBody depth body with
      | error f =>
        rcases readBody_error url hread with hproper | ⟨inList, text, rfl, hsame⟩
        · exact .inl hproper
        · exact .inr ⟨_, .nesting hsuccess hread, congrArg Except.error hsame⟩
      | ok v =>
        cases v with
        | obj members => exact outcomeOf_ends url hsuccess hread
        | _ => exact .inl (.unusable _)

theorem interpret_of_unbounded (url : String) (h : Unbounded depth answer f) :
    interpret depth url answer = .error f := by
  cases h with
  | nesting hsuccess hread =>
    rw [interpret_of_success depth url hsuccess, hread]
    rfl
  | exitCode hsuccess hread hnumber =>
    rw [interpret_of_success depth url hsuccess, hread]
    exact outcomeOf_of_code (Json.toWhole_eq_infinite.mpr ⟨_, hnumber⟩)
  | duration hsuccess hread hcode hnumber =>
    rw [interpret_of_success depth url hsuccess, hread]
    exact outcomeOf_of_duration hcode (Json.toWhole_eq_infinite.mpr ⟨_, hnumber⟩)

end Answers

section Calls

variable (r : Remote) (language code job : String) (h : Host)

def answer (r : Remote) (language code : String) (h : Host) : HttpResult :=
  h.wire.respond h.wire.sent (r.request language code)

/-- What a call has to meet for its failure to be another one. -/
inductive Escapes (r : Remote) (language code : String) (h : Host) : Failure → Prop
  | address {reason : String} : h.wire.addressFault r.url = some reason →
    Escapes r language code h (.address reason)
  | answer {f : Failure} : h.wire.addressFault r.url = none →
    Unbounded h.wire.depth (r.answer language code h) f → Escapes r language code h f

theorem execute_of_unaddressed {reason : String}
    (hfault : h.wire.addressFault r.url = some reason) :
    (result (r.execute language code job) h).1 = .error (.address reason) := by
  have hfault' (source : String) (level : LogLevel) (text : String) :
      (h.note source level text).wire.addressFault r.url = some reason := hfault
  unfold execute
  rw [Success.result_bind]
  show (result _ (h.note ..)).1 = _
  rw [Success.result_bind]
  show (result _ (h.note ..)).1 = _
  simp only [hfault']
  rfl

theorem execute_of_addressed (hnone : h.wire.addressFault r.url = none) :
    (result (r.execute language code job) h).1 =
      interpret h.wire.depth r.url (r.answer language code h) := by
  have hsend (h : Host) (request : HttpRequest) :
      result (Act.send request) h = (.ok (h.send request).2, (h.send request).1) := rfl
  have hnone' (source : String) (level : LogLevel) (text : String) :
      (h.note source level text).wire.addressFault r.url = none := hnone
  unfold execute
  rw [Success.result_bind]
  show (result _ (h.note ..)).1 = _
  rw [Success.result_bind]
  show (result _ (h.note ..)).1 = _
  simp only [hnone']
  rw [Success.result_bind, hsend]
  dsimp only
  rw [Success.result_lift]
  rfl

/-- Whatever the network does, a block that is run by a service ends with an outcome that is good
exactly with the exit code zero, or with the failure that the service could not be used, unless
the address of the service cannot be read or the answer holds values too deep inside each other,
an infinite exit code or an infinite length of the run; and then it ends with a failure that says
so. -/
theorem execute_proper_unless :
    (Proper r.url (result (r.execute language code job) h).1 ↔
      ∀ f, ¬ Escapes r language code h f) ∧
    ∀ f, Escapes r language code h f →
      (result (r.execute language code job) h).1 = .error f := by
  have hescaped : ∀ f, Escapes r language code h f →
      (result (r.execute language code job) h).1 = .error f ∧ ¬ Proper r.url (.error f) := by
    intro f hescapes
    cases hescapes with
    | address hfault => exact ⟨execute_of_unaddressed r language code job h hfault, nofun⟩
    | answer hnone hunbounded =>
      rw [execute_of_addressed r language code job h hnone]
      exact ⟨interpret_of_unbounded r.url hunbounded, not_proper_of_unbounded hunbounded⟩
  refine ⟨⟨fun hproper f hescapes => ?_, fun hall => ?_⟩, fun f hescapes => (hescaped f hescapes).1⟩
  · obtain ⟨hfailed, hnot⟩ := hescaped f hescapes
    exact hnot (hfailed ▸ hproper)
  · cases hfault : h.wire.addressFault r.url with
    | some reason => exact absurd (.address hfault) (hall _)
    | none =>
      rw [execute_of_addressed r language code job h hfault]
      rcases interpret_ends h.wire.depth r.url (r.answer language code h) with
        hproper | ⟨f, hunbounded, -⟩
      · exact hproper
      · exact absurd (.answer hfault hunbounded) (hall f)

end Calls

section Witness

/-- A host on whose network every answer is an object with an exit code beyond all bounds. -/
def boundlessHost : Host where
  machine := .start ⟨[]⟩
  cwd := []
  env := []
  wire := { respond := fun _ _ => .response 200 "\x7b\"exit_code\": 1e400\x7d", depth := 987 }

/-- A numeral that stands for no finite number gets past the failures of a call. -/
theorem execute_proper_unless_boundless :
    Escapes ⟨"http:", none⟩ "perl" "1;" boundlessHost .infiniteNumber ∧
      (result (execute ⟨"http:", none⟩ "perl" "1;" "job") boundlessHost).1 =
        .error .infiniteNumber := by
  have hread : Network.readBody 987 "\x7b\"exit_code\": 1e400\x7d" =
      .ok (.obj [("exit_code", .float (.infinite false))]) := by cbv
  have hescapes : Escapes ⟨"http:", none⟩ "perl" "1;" boundlessHost .infiniteNumber :=
    .answer rfl (.exitCode rfl hread rfl)
  exact ⟨hescapes, (execute_proper_unless _ _ _ _ _).2 _ hescapes⟩

end Witness

end Remote

end SnippetRunner
