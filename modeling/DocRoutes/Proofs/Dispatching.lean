import Mathlib.Data.List.Forall2
import DocRoutes.Handler.Dispatch

/-!
# What a route answers

The last handler of a route takes the arguments from the request, calls the method and answers.

**Arguments** (`Request.Supplies`). Each parameter is supplied from the fields of its source, and by
null if there is no field of its name.

**The call** (`Method.Ends`). A call breaks off, or it begins a computation that suspends some times
and then has an outcome. Each call ends in one way (`exists_ends`, `Ends.unique`), and the result of
the call is that of the outcome, however often it suspended (`invoke_of_ends`).

**The answer.** A value is sent as the declared type says (`Route.Sends`), and a failure is reported
(`Endpoint.Reports`): with the status in it, with what the filter makes of it, and with one event for
the log. A call that broke off has failed.

Main result: `dispatch_of_outcome`.
-/

namespace DocRoutes

/-! ## Arguments -/

/-- What a request supplies for a parameter. -/
inductive Request.Supplies (q : Request) (p : Param) : Json → Prop
  | present {value : Json} :
      (q.fields p.source).get? p.name = some value → Supplies q p value
  | absent : (q.fields p.source).get? p.name = none → Supplies q p .null

theorem Request.supplies_field (q : Request) (p : Param) :
    q.Supplies p (q.field p.source p.name) := by
  unfold field
  cases hfield : (q.fields p.source).get? p.name with
  | some value => exact .present hfield
  | none => exact .absent hfield

theorem Route.supplies_arguments (r : Route) (q : Request) :
    List.Forall₂ q.Supplies r.params (r.arguments q) := by
  rw [arguments, List.forall₂_map_right_iff, List.forall₂_same]
  intro p _
  exact q.supplies_field p

/-- The arguments depend on the fields of the sources of the parameters, and on nothing else. -/
theorem Route.arguments_congr {r : Route} {q q' : Request}
    (h : ∀ p ∈ r.params, (q.fields p.source).get? p.name = (q'.fields p.source).get? p.name) :
    r.arguments q = r.arguments q' := by
  apply List.map_congr_left
  intro p hp
  rw [Request.field, Request.field, h p hp]

/-! ## Calls -/

namespace Pending

variable {α : Type}

/-- A computation suspends some times and then ends. -/
theorem exists_eq_after (p : Pending α) : ∃ n, p = after n (.done p.wait) := by
  induction p with
  | done a => exact ⟨0, rfl⟩
  | suspended p ih =>
    obtain ⟨n, hn⟩ := ih
    exact ⟨n + 1, congrArg suspended hn⟩

end Pending

/-- The failure that tells what a panic said. -/
inductive Panic.ToldBy : Panic → Failure → Prop
  | text (message : String) :
      ToldBy (.text message) { message := "Controller method panicked: " ++ message }
  | other : ToldBy .other { message := "Controller method panicked: unknown panic payload" }

theorem Panic.ToldBy.eq_toFailure {panic : Panic} {f : Failure} (h : panic.ToldBy f) :
    panic.toFailure = f := by
  cases h with
  | text message => rfl
  | other => rfl

namespace Method

/-- How a call of a method ends. -/
inductive Ends (m : Method) (args : List Json) : Outcome → Prop
  /-- The call itself breaks off. -/
  | brokeOff {panic : Panic} : m.call args = .brokeOff panic → Ends m args (.panicked panic)
  /-- The computation suspends `n` times. -/
  | running (n : Nat) {outcome : Outcome} :
      m.call args = .running (.after n (.done outcome)) → Ends m args outcome

/-- A call fails: the method gives a failure, or it panics at some time. -/
inductive FailsWith (m : Method) (args : List Json) : Failure → Prop
  | failed {f : Failure} : m.Ends args (.failed f) → FailsWith m args f
  | panicked {panic : Panic} {f : Failure} :
      m.Ends args (.panicked panic) → panic.ToldBy f → FailsWith m args f

variable {m : Method} {args : List Json} {outcome outcome' : Outcome}

theorem exists_ends (m : Method) (args : List Json) : ∃ outcome, m.Ends args outcome := by
  cases hcall : m.call args with
  | brokeOff panic => exact ⟨_, .brokeOff hcall⟩
  | running rest =>
    obtain ⟨n, hn⟩ := rest.exists_eq_after
    rw [hn] at hcall
    exact ⟨_, .running n hcall⟩

theorem Ends.unique (h : m.Ends args outcome) (h' : m.Ends args outcome') : outcome = outcome' := by
  cases h with
  | brokeOff hcall => cases h' with
    | brokeOff hcall' =>
      cases hcall.symm.trans hcall'
      rfl
    | running _ hcall' => cases hcall.symm.trans hcall'
  | running n hcall => cases h' with
    | brokeOff hcall' => cases hcall.symm.trans hcall'
    | running n' hcall' =>
      have hrest := Invocation.running.inj (hcall.symm.trans hcall')
      have hwait := congrArg Pending.wait hrest
      rw [Pending.wait_after, Pending.wait_after] at hwait
      exact hwait

/-- The result of a call is that of its outcome. -/
theorem invoke_of_ends (h : m.Ends args outcome) : m.invoke args = outcome.toExcept := by
  cases h with
  | brokeOff hcall => simp [invoke, hcall, Outcome.toExcept]
  | running n hcall => simp [invoke, hcall, Pending.wait]

theorem invoke_of_failsWith {f : Failure} (h : m.FailsWith args f) : m.invoke args = .error f := by
  cases h with
  | failed h => exact invoke_of_ends h
  | panicked h htold =>
    rw [invoke_of_ends h, ← htold.eq_toFailure]
    rfl

end Method

/-! ## Answers -/

/-- The types of results that are sent as JSON. -/
def structuredTypes : List String := ["Object", "Array"]

/-- How a value is sent. -/
inductive Route.Sends (r : Route) : Json → Body → Prop
  | json (v : Json) : r.returns.type ∈ structuredTypes → Sends r v (.json v)
  | text (s : String) : r.returns.type ∉ structuredTypes → Sends r (.str s) (.raw s)
  | nothing : r.returns.type ∉ structuredTypes → Sends r .null .empty
  | other (v : Json) : r.returns.type ∉ structuredTypes → v ≠ .null → (∀ s, v ≠ .str s) →
      Sends r v (.raw v.compact)

theorem Route.exists_sends (r : Route) (v : Json) :
    ∃ body, r.Sends v body ∧ r.success v = ⟨.ok, body⟩ := by
  have hstructured : r.returns.isStructured = true ↔ r.returns.type ∈ structuredTypes := by
    simp [Returns.isStructured, structuredTypes]
  unfold success
  by_cases htype : r.returns.type ∈ structuredTypes
  · rw [if_pos (hstructured.2 htype)]
    exact ⟨_, .json v htype, rfl⟩
  · rw [if_neg (mt hstructured.1 htype)]
    cases v with
    | null => exact ⟨_, .nothing htype, rfl⟩
    | str s => exact ⟨_, .text s htype, rfl⟩
    | bool | int | float | arr | obj => exact ⟨_, .other _ htype nofun nofun, rfl⟩

namespace Endpoint

/-- A failure is reported: to the client, and once to the log. -/
structure Reports (e : Endpoint) (f : Failure) (served : Served) : Prop where
  status : served.response.status = f.status e.policy.statusProperty
  body : served.response.body = .json (e.policy.filter f)
  logged : ∃ event, served.notes = [.methodFailed event] ∧ event.toLog =
    ⟨.error, "Controller method failed: " ++ f.message,
      [("controller", e.controller), ("method", e.route.name),
        ("status", toString (f.status e.policy.statusProperty).code),
        ("trace", f.trace.getD "<none>"), ("details", f.toJson.compact)]⟩

variable {e : Endpoint} {q : Request}

theorem dispatch_of_ok {v : Json} (h : e.result q = .ok v) :
    e.dispatch q = ⟨e.route.success v, []⟩ := by
  simp [dispatch, h]

theorem reports_of_error {f : Failure} (h : e.result q = .error f) : e.Reports f (e.dispatch q) := by
  have hdispatch : e.dispatch q = ⟨e.policy.response f, [.methodFailed (e.failedEvent f)]⟩ := by
    simp [dispatch, h]
  rw [hdispatch]
  exact {
    status := rfl
    body := rfl
    logged := ⟨e.failedEvent f, rfl, rfl⟩ }

theorem result_of_method {m : Method} (h : e.method = some m) :
    e.result q = m.invoke (e.route.arguments q) := by
  simp [result, h]

theorem result_of_missing (h : e.method = none) : e.result q = .error e.missing := by
  simp [result, h]

/-- Methods with the same result are served in the same way. -/
theorem dispatch_congr {m m' : Method}
    (h : m.invoke (e.route.arguments q) = m'.invoke (e.route.arguments q)) :
    { e with method := some m }.dispatch q = { e with method := some m' }.dispatch q := by
  have hresult : { e with method := some m }.result q = { e with method := some m' }.result q := h
  unfold dispatch
  rw [hresult]
  rfl

/-! ## Main result -/

/-- **The answer of a route follows from how its method ends.** The method is called with one argument
for each parameter, in order, which the request supplies from the fields of the source. Every call
ends in one way. A value is sent with status 200, as the declared type says, and nothing is logged. A
failure, a panic and a method that is missing are reported, whatever the declared type. When the
method suspends, and how often, makes no difference, and neither does it whether it panics or fails
with what the panic said. Without a filter of its own a policy sends nothing of the trace of a
failure. -/
theorem dispatch_of_outcome (e : Endpoint) (q : Request) :
    let args := e.route.arguments q
    let served := e.dispatch q
    List.Forall₂ q.Supplies e.route.params args ∧
    (∀ q', (∀ p ∈ e.route.params,
      (q.fields p.source).get? p.name = (q'.fields p.source).get? p.name) →
      e.route.arguments q' = args) ∧
    (∀ m : Method, ∃ outcome, m.Ends args outcome ∧ ∀ other, m.Ends args other → other = outcome) ∧
    (∀ m v, e.method = some m → m.Ends args (.returned v) →
      ∃ body, e.route.Sends v body ∧ served = ⟨⟨.ok, body⟩, []⟩) ∧
    (∀ m f, e.method = some m → m.FailsWith args f → e.Reports f served) ∧
    (e.method = none → e.Reports
      { message := "Controller " ++ e.controller ++ " has no method " ++ e.route.name } served) ∧
    (∀ m m' outcome, m.Ends args outcome → m'.Ends args outcome →
      { e with method := some m }.dispatch q = { e with method := some m' }.dispatch q) ∧
    (∀ m m' panic f, m.Ends args (.panicked panic) → panic.ToldBy f → m'.Ends args (.failed f) →
      { e with method := some m }.dispatch q = { e with method := some m' }.dispatch q) ∧
    (e.policy.filter = Failure.toJson →
      ∀ f trace, e.policy.response { f with trace } = e.policy.response f) := by
  intro args served
  refine ⟨e.route.supplies_arguments q, ?_, ?_, ?_, ?_, ?_, ?_, ?_, ?_⟩
  · intro q' h
    exact (Route.arguments_congr h).symm
  · intro m
    obtain ⟨outcome, h⟩ := m.exists_ends args
    exact ⟨outcome, h, fun other hother => hother.unique h⟩
  · intro m v hmethod hends
    obtain ⟨body, hsends, hsuccess⟩ := e.route.exists_sends v
    have hresult : e.result q = .ok v :=
      (result_of_method hmethod).trans (Method.invoke_of_ends hends)
    exact ⟨body, hsends, (dispatch_of_ok hresult).trans (by rw [hsuccess])⟩
  · intro m f hmethod hfails
    apply reports_of_error
    rw [result_of_method hmethod, Method.invoke_of_failsWith hfails]
  · intro hmissing
    exact reports_of_error (result_of_missing hmissing)
  · intro m m' outcome hends hends'
    apply dispatch_congr
    rw [Method.invoke_of_ends hends, Method.invoke_of_ends hends']
  · intro m m' panic f hends htold hends'
    apply dispatch_congr
    rw [Method.invoke_of_failsWith (.panicked hends htold),
      Method.invoke_of_failsWith (.failed hends')]
  · intro hfilter f trace
    rw [FailurePolicy.response, FailurePolicy.response, hfilter]
    rfl

/-- A method that gives back its arguments, one that panics after suspending, one that fails with what
the panic said, and a route without a method. -/
theorem dispatch_of_update :
    let route : Route := ⟨"update", "", .post, "/users/:id",
      [{ name := "id", source := .path }, { name := "id", source := .local }], ⟨"String", ""⟩⟩
    let q : Request := { params := (∅ : Dict Json).insert "id" (.str "7") }
    let e (m : Option Method) : Endpoint := ⟨"Users", route, m, {}⟩
    let kaboom : Failure := { message := "Controller method panicked: kaboom" }
    let echo : Method := .immediate fun args => .returned (.arr args)
    let panicking : Method := .suspending fun _ => .panicked (.text "kaboom")
    let failing : Method := .immediate fun _ => .failed kaboom
    ((e (some echo)).dispatch q) = ⟨⟨.ok, .raw "[\"7\",null]"⟩, []⟩ ∧
      (e (some panicking)).Reports kaboom ((e (some panicking)).dispatch q) ∧
      (e (some panicking)).dispatch q = (e (some failing)).dispatch q ∧
      (e none).Reports { message := "Controller Users has no method update" }
        ((e none).dispatch q) ∧
      (e none).policy.response { kaboom with trace := some "users.rs:42" } =
        (e none).policy.response kaboom := by
  intro route q e kaboom echo panicking failing
  have hecho : echo.Ends (route.arguments q) (.returned (.arr [.str "7", .null])) := .running 0 rfl
  have hpanicking : panicking.Ends (route.arguments q) (.panicked (.text "kaboom")) :=
    .running 1 rfl
  have hfailing : failing.Ends (route.arguments q) (.failed kaboom) := .running 0 rfl
  have htold : (Panic.text "kaboom").ToldBy kaboom := .text "kaboom"
  obtain ⟨-, -, -, hvalue, -⟩ := dispatch_of_outcome (e (some echo)) q
  obtain ⟨-, -, -, -, hfails, -, -, hpanic, -⟩ := dispatch_of_outcome (e (some panicking)) q
  obtain ⟨-, -, -, -, -, hmissing, -, -, hfilter⟩ := dispatch_of_outcome (e none) q
  refine ⟨?_, hfails _ _ rfl (.panicked hpanicking htold),
    hpanic _ _ _ _ hpanicking htold hfailing, hmissing rfl, hfilter rfl kaboom _⟩
  obtain ⟨body, hsends, hserved⟩ := hvalue echo _ rfl hecho
  rw [hserved]
  cases hsends with
  | json v htype => exact absurd htype (by decide)
  | other v => rfl

end Endpoint

end DocRoutes
