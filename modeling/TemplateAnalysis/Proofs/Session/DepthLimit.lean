import Mathlib.Logic.Function.Iterate
import TemplateAnalysis.Proofs.Session.Depth
import TemplateAnalysis.Proofs.Session.Dialogues
import TemplateAnalysis.Proofs.Session.Runs

/-!
# The limit of nested instances

A machine carries a dialogue out, and the dialogues that making instances leads to: one
frame for each instance that is being made, the innermost on top, and at the bottom the
step that asked first. A request makes a frame, unless as many are there as the limit
allows; then it is refused. So there are never more frames than that, and the machine
stops: what the limit leaves of frames descends with every frame, and within one frame
the dialogue does. A refusal unwinds all frames and becomes the outcome of the step,
because no frame reports it in other words, and nothing else is reported like it. An
instance that is made without a refusal is made just so where more frames are left.
-/

namespace TemplateAnalysis

open Session Analysis

variable {α : Type}

/-! ### What the limit leaves -/

theorem level_of_instantiateWithin {left : Nat} {template : SymbolId} {arguments : List Node}
    {span : Span} {s u : Session} {answer : Except Diagnostic SymbolId}
    (h : exec (instantiateWithin left template arguments span) s = (answer, u)) :
    u.level = s.level := by
  have hsim : Simulation (fun v w => w = v ∧ v.level = s.level) fun _ => True :=
    .ofInvariant (fun h _ => h) (fun h _ _ => h) (fun _ _ => trivial) fun _ _ _ _ _ _ => trivial
  have hlevel := (hsim.instantiateWithin left ⟨rfl, rfl⟩ template arguments span).related.2
  rwa [h] at hlevel

/-- An instance that is made within a rest is made just so within a greater one. -/
theorem makesAs_instantiateWithin (level : Nat × Config) : ∀ {left left' : Nat}, left ≤ left' →
    (instantiateWithin left).MakesAs (instantiateWithin left') level
  | 0, _, _ => fun _ h => by
    rw [instantiateWithin, exec_get_bind] at h
    cases h
  | left + 1, left' + 1, hleft => fun hlevel h => by
    refine ⟨(level_of_instantiateWithin h).trans hlevel, ?_⟩
    rw [instantiateWithin_succ] at h ⊢
    exact (Converses.instantiateStep _ _ _).exec_eq_of_makesAs
      (makesAs_instantiateWithin _ (Nat.le_of_succ_le_succ hleft)) h

theorem makesAs_instantiate {level : Nat × Config} {left : Nat}
    (hleft : left ≤ level.2.maxDepth - level.1) :
    (instantiateWithin left).MakesAs instantiate level := fun hlevel h => by
  rw [← hlevel] at hleft
  rw [instantiate, exec_get_bind]
  exact makesAs_instantiateWithin level hleft hlevel h

/-! ### Requests -/

namespace Request

def IsRefused (q : Request) : Prop := q.session.config.maxDepth ≤ q.session.depth

instance (q : Request) : Decidable q.IsRefused :=
  inferInstanceAs (Decidable (q.session.config.maxDepth ≤ q.session.depth))

def refusal (q : Request) : Diagnostic :=
  ⟨.depthExceeded (q.session.table.symbol q.template).name q.session.config.maxDepth, q.span⟩

def inner (q : Request) : Session := { q.session with depth := q.session.depth + 1 }

theorem exists_body (q : Request) : ∃ D : Dialogue SymbolId,
    D.Represents (fun inst => instantiateStep inst q.template q.arguments q.span) q.inner :=
  Converses.instantiateStep q.template q.arguments q.span q.inner

noncomputable def body (q : Request) : Dialogue SymbolId := q.exists_body.choose

theorem represents_body (q : Request) : q.body.Represents
    (fun inst => instantiateStep inst q.template q.arguments q.span) q.inner :=
  q.exists_body.choose_spec

def answer (q : Request) : Except Diagnostic SymbolId × Session :=
  exec (instantiate q.template q.arguments q.span) q.session

theorem answer_of_isRefused {q : Request} (h : q.IsRefused) :
    q.answer = (.error q.refusal, q.session) := by
  rw [answer, exec_instantiate]
  exact if_pos h

theorem answer_of_not_isRefused {q : Request} (h : ¬ q.IsRefused) :
    q.answer = ((q.body.play instantiate).1, { (q.body.play instantiate).2 with
      depth := (q.body.play instantiate).2.depth - 1 }) := by
  rw [answer, exec_instantiate, q.represents_body.play_eq]
  exact if_neg h

theorem level_answer (q : Request) : q.answer.2.level = q.session.level := by
  rw [answer, instantiate, exec_get_bind]
  exact level_of_instantiateWithin rfl

end Request

theorem Dialogue.play_asks (q : Request) (rewording : Rewording)
    (next : SymbolId → Session → Dialogue α) :
    (Dialogue.asks q rewording next).play instantiate =
      match q.answer with
      | (.ok id, u) => (next id u).play instantiate
      | (.error d, u) => (.error (rewording.words d), u) := by
  rw [Dialogue.play]
  rfl

/-! ### The machine -/

structure Waiting (α : Type) where
  rewording : Rewording
  next : SymbolId → Session → Dialogue α

/-- A waiting step goes on at a depth if the answer is at this depth. -/
def Waiting.IsAt (level : Nat × Config) (frame : Waiting α) : Prop :=
  ∀ id u, u.level = level → (frame.next id u).IsAt level

/-- A step that is carried out, with the instances that are being made for it. -/
inductive Machine (α : Type) where
  /-- No instance is being made. -/
  | outside (run : Dialogue α)
  /-- An instance is being made, for the frames around it. -/
  | inside (run : Dialogue SymbolId) (outer : List (Waiting SymbolId)) (caller : Waiting α)
  /-- A request is answered. -/
  | answers (result : Except Diagnostic SymbolId) (session : Session)
      (outer : List (Waiting SymbolId)) (caller : Waiting α)
  | done (result : Except Diagnostic α) (session : Session)

namespace Machine

def frames : Machine α → Nat
  | inside _ outer _ => outer.length + 1
  | answers _ _ outer _ => outer.length
  | outside _ | done _ _ => 0

def request? : Machine α → Option Request
  | outside run => run.request?
  | inside run _ _ => run.request?
  | answers _ _ _ _ | done _ _ => none

/-- A request is refused, or opens a frame. -/
noncomputable def serve (q : Request) (outer : List (Waiting SymbolId)) (caller : Waiting α) :
    Machine α :=
  if q.IsRefused then answers (.error q.refusal) q.session outer caller
  else inside q.body outer caller

noncomputable def step : Machine α → Machine α
  | outside (.ends result _ s) => done result s
  | outside (.asks q rewording next) => serve q [] ⟨rewording, next⟩
  | inside (.ends result _ s) outer caller =>
    answers result { s with depth := s.depth - 1 } outer caller
  | inside (.asks q rewording next) outer caller => serve q (⟨rewording, next⟩ :: outer) caller
  | answers (.ok id) u [] caller => outside (caller.next id u)
  | answers (.ok id) u (frame :: outer) caller => inside (frame.next id u) outer caller
  | answers (.error d) u [] caller => done (.error (caller.rewording.words d)) u
  | answers (.error d) u (frame :: outer) caller =>
    answers (.error (frame.rewording.words d)) { u with depth := u.depth - 1 } outer caller
  | done result u => done result u

def Reaches (m m' : Machine α) : Prop := ∃ n, step^[n] m = m'

theorem Reaches.refl (m : Machine α) : m.Reaches m := ⟨0, rfl⟩

theorem Reaches.of_step {m m' : Machine α} (h : m.step.Reaches m') : m.Reaches m' := by
  obtain ⟨n, hn⟩ := h
  exact ⟨n + 1, hn⟩

theorem Reaches.trans {m m' m'' : Machine α} (h : m.Reaches m') (h' : m'.Reaches m'') :
    m.Reaches m'' := by
  obtain ⟨n, rfl⟩ := h
  obtain ⟨k, rfl⟩ := h'
  exact ⟨k + n, Function.iterate_add_apply step k n m⟩

theorem iterate_done (n : Nat) (result : Except Diagnostic α) (u : Session) :
    step^[n] (done result u) = done result u :=
  Function.iterate_fixed rfl n

/-! ### Frames -/

def AreAt (config : Config) : List (Waiting SymbolId) → Prop
  | [] => True
  | frame :: outer => frame.IsAt (outer.length + 1, config) ∧ AreAt config outer

/-- The depth of the session is the number of frames, which is within the limit. -/
inductive Nests (config : Config) : Machine α → Prop
  | outside {run : Dialogue α} (run_at : run.IsAt (0, config)) : Nests config (outside run)
  | inside {run : Dialogue SymbolId} {outer : List (Waiting SymbolId)} {caller : Waiting α}
      (run_at : run.IsAt (outer.length + 1, config)) (outer_at : AreAt config outer)
      (caller_at : caller.IsAt (0, config)) (room : outer.length < config.maxDepth) :
      Nests config (inside run outer caller)
  | answers {result : Except Diagnostic SymbolId} {u : Session}
      {outer : List (Waiting SymbolId)} {caller : Waiting α}
      (session_at : u.level = (outer.length, config)) (outer_at : AreAt config outer)
      (caller_at : caller.IsAt (0, config)) (within : outer.length ≤ config.maxDepth) :
      Nests config (answers result u outer caller)
  | done (result : Except Diagnostic α) (u : Session) : Nests config (done result u)

variable {config : Config}

theorem Nests.serve {q : Request} {outer : List (Waiting SymbolId)} {caller : Waiting α}
    (hq : q.session.level = (outer.length, config)) (houter : AreAt config outer)
    (hcaller : caller.IsAt (0, config)) (hwithin : outer.length ≤ config.maxDepth) :
    (Machine.serve q outer caller).Nests config := by
  obtain ⟨hdepth, hconfig⟩ := Prod.mk.inj hq
  unfold Machine.serve
  split
  · exact .answers hq houter hcaller hwithin
  · rename_i hroom
    rw [Request.IsRefused, hdepth, hconfig, Nat.not_le] at hroom
    have hbody := q.represents_body.isAt
    rw [Session.level, Request.inner, hdepth, hconfig] at hbody
    exact .inside hbody houter hcaller hroom

/-- Each step of the machine keeps the frames within the limit. -/
theorem Nests.step {m : Machine α} (hm : m.Nests config) : m.step.Nests config := by
  cases hm with
  | outside run_at =>
    cases run_at with
    | ends _ => exact .done _ _
    | asks at_level next_at => exact .serve at_level trivial next_at (Nat.zero_le _)
  | inside run_at outer_at caller_at room =>
    cases run_at with
    | ends at_level =>
      obtain ⟨hdepth, hconfig⟩ := Prod.mk.inj at_level
      refine .answers (Prod.ext ?_ hconfig) outer_at caller_at (Nat.le_of_lt room)
      exact congrArg (· - 1) hdepth
    | asks at_level next_at => exact .serve at_level ⟨next_at, outer_at⟩ caller_at room
  | @answers result u outer caller session_at outer_at caller_at within =>
    rcases result with d | id
    · cases outer with
      | nil => exact .done _ _
      | cons frame outer =>
        obtain ⟨hdepth, hconfig⟩ := Prod.mk.inj session_at
        refine .answers (Prod.ext ?_ hconfig) outer_at.2 caller_at (Nat.le_of_succ_le within)
        exact congrArg (· - 1) hdepth
    · cases outer with
      | nil => exact .outside (caller_at id u session_at)
      | cons frame outer =>
        exact .inside (outer_at.1 id u session_at) outer_at.2 caller_at within
  | done result u => exact .done result u

/-- The frames stay within the limit as long as the machine runs. -/
theorem Nests.of_reaches {m m' : Machine α} (hm : m.Nests config) (h : m.Reaches m') :
    m'.Nests config := by
  obtain ⟨n, rfl⟩ := h
  induction n with
  | zero => exact hm
  | succ n ih =>
    rw [Function.iterate_succ_apply']
    exact ih.step

theorem Nests.frames_le {m : Machine α} (hm : m.Nests config) : m.frames ≤ config.maxDepth := by
  cases hm with
  | outside _ => exact Nat.zero_le _
  | inside _ _ _ room => exact room
  | answers _ _ _ within => exact within
  | done _ _ => exact Nat.zero_le _

theorem Nests.level_request {m : Machine α} (hm : m.Nests config) {q : Request}
    (hq : m.request? = some q) : q.session.level = (m.frames, config) := by
  cases hm with
  | outside run_at => exact run_at.level_request hq
  | inside run_at _ _ _ => exact run_at.level_request hq
  | answers _ _ _ _ => cases hq
  | done _ _ => cases hq

theorem Nests.isRefused_iff {m : Machine α} (hm : m.Nests config) {q : Request}
    (hq : m.request? = some q) : q.IsRefused ↔ m.frames = config.maxDepth := by
  obtain ⟨hdepth, hconfig⟩ := Prod.mk.inj (hm.level_request hq)
  rw [Request.IsRefused, hdepth, hconfig]
  have hwithin := hm.frames_le
  omega

/-! ### Termination -/

/-- A frame is left with what its dialogue comes to, if the requests in it are answered. -/
theorem reaches_answers_of_serve {left : Nat} {level : Nat × Config}
    (hlevel : level.2.maxDepth - level.1 = left)
    (hserve : ∀ q : Request, q.session.config.maxDepth - q.session.depth = left →
      ∀ (outer : List (Waiting SymbolId)) (caller : Waiting α),
        (serve q outer caller).Reaches (answers q.answer.1 q.answer.2 outer caller))
    {D : Dialogue SymbolId} (hD : D.IsAt level) (outer : List (Waiting SymbolId))
    (caller : Waiting α) :
    (inside D outer caller).Reaches (answers (D.play instantiate).1
      { (D.play instantiate).2 with depth := (D.play instantiate).2.depth - 1 } outer caller) := by
  induction hD with
  | ends _ => exact .of_step (.refl _)
  | @asks q rewording next at_level _ ih =>
    have hleft : q.session.config.maxDepth - q.session.depth = left := by
      rw [← hlevel, ← at_level, Session.level]
    refine .of_step ((hserve q hleft (⟨rewording, next⟩ :: outer) caller).trans (.of_step ?_))
    have hafter := q.level_answer
    rw [Dialogue.play_asks]
    generalize q.answer = answer at hafter ⊢
    rcases answer with ⟨d | id, u⟩
    · exact .refl _
    · exact ih id u (hafter.trans at_level)

/-- Every request is answered as the program answers it. -/
theorem reaches_answer : ∀ (left : Nat) (q : Request),
    q.session.config.maxDepth - q.session.depth = left →
    ∀ (outer : List (Waiting SymbolId)) (caller : Waiting α),
      (serve q outer caller).Reaches (answers q.answer.1 q.answer.2 outer caller)
  | 0, q, hleft, outer, caller => by
    have hrefused : q.IsRefused := Nat.le_of_sub_eq_zero hleft
    rw [q.answer_of_isRefused hrefused, serve, if_pos hrefused]
    exact .refl _
  | left + 1, q, hleft, outer, caller => by
    have hroom : ¬ q.IsRefused := by
      rw [Request.IsRefused]
      omega
    have hinner : q.inner.config.maxDepth - q.inner.depth = left := by
      simp only [Request.inner]
      omega
    rw [q.answer_of_not_isRefused hroom, serve, if_neg hroom]
    exact reaches_answers_of_serve hinner (reaches_answer left) q.represents_body.isAt outer caller

/-- The machine stops, with what the dialogue comes to. -/
theorem reaches_done (D : Dialogue α) :
    (outside D).Reaches (done (D.play instantiate).1 (D.play instantiate).2) := by
  induction D with
  | ends result own session => exact .of_step (.refl _)
  | asks q rewording next ih =>
    refine .of_step ((reaches_answer _ q rfl [] ⟨rewording, next⟩).trans (.of_step ?_))
    rw [Dialogue.play_asks]
    rcases q.answer with ⟨d | id, u⟩
    · exact .refl _
    · exact ih id u

/-! ### Unwinding -/

/-- The failure that unwinds the frames. -/
def raised? : Machine α → Option Diagnostic
  | answers (.error d) _ _ _ | done (.error d) _ => some d
  | outside _ | inside _ _ _ | answers (.ok _) _ _ _ | done (.ok _) _ => none

theorem raised?_step_of_isRefused {m : Machine α} {q : Request} (hq : m.request? = some q)
    (hrefused : q.IsRefused) : m.step.raised? = some q.refusal := by
  have hserve : ∀ (outer : List (Waiting SymbolId)) (caller : Waiting α),
      (serve q outer caller).raised? = some q.refusal := by
    intro outer caller
    rw [serve, if_pos hrefused, raised?]
  rcases m with ⟨_ | _⟩ | ⟨_ | _, _, _⟩ | _ | _ <;> cases hq
  · exact hserve _ _
  · exact hserve _ _

theorem raised?_step {m : Machine α} {d : Diagnostic} (hd : d.isTooDeep = true)
    (hm : m.raised? = some d) : m.step.raised? = some d := by
  rcases m with _ | _ | ⟨_ | _, u, _ | _, caller⟩ | ⟨_ | _, u⟩ <;> cases hm
  · simp only [step, raised?, caller.rewording.tooDeep d hd]
  · rename_i frame outer
    simp only [step, raised?, frame.rewording.tooDeep d hd]
  · rfl

theorem raised?_iterate {d : Diagnostic} (hd : d.isTooDeep = true) {m : Machine α}
    (hm : m.raised? = some d) : ∀ n : Nat, (step^[n] m).raised? = some d
  | 0 => hm
  | n + 1 => by
    rw [Function.iterate_succ_apply']
    exact raised?_step hd (raised?_iterate hd hm n)

theorem isRefused_of_raised?_serve {q : Request} {outer : List (Waiting SymbolId)}
    {caller : Waiting α} {d : Diagnostic} (h : (serve q outer caller).raised? = some d) :
    q.IsRefused ∧ q.refusal = d := by
  unfold serve at h
  split at h
  · rename_i hrefused
    exact ⟨hrefused, Option.some.inj h⟩
  · cases h

/-- That instances are nested too deeply has been raised before, or is a refusal. -/
theorem raised?_of_step {m : Machine α} {d : Diagnostic} (hd : d.isTooDeep = true)
    (hm : m.step.raised? = some d) :
    m.raised? = some d ∨ ∃ q, m.request? = some q ∧ q.IsRefused ∧ q.refusal = d := by
  -- A dialogue that ends by itself does not report the depth; only refusals do.
  have hown : ∀ {β : Type}, ¬ IsShallow (.error d : Except Diagnostic β) := fun own =>
    Bool.false_ne_true ((own d rfl).symm.trans hd)
  cases m with
  | outside run =>
    cases run with
    | ends result own u =>
      cases result with
      | ok _ => cases hm
      | error e =>
        cases hm
        exact absurd own hown
    | asks q _ _ => exact .inr ⟨q, rfl, isRefused_of_raised?_serve hm⟩
  | inside run outer caller =>
    cases run with
    | ends result own u =>
      cases result with
      | ok _ => cases hm
      | error e =>
        cases hm
        exact absurd own hown
    | asks q _ _ => exact .inr ⟨q, rfl, isRefused_of_raised?_serve hm⟩
  | answers result u outer caller =>
    cases result with
    | ok id => cases outer <;> cases hm
    | error e =>
      cases outer with
      | nil =>
        exact .inl (congrArg some (caller.rewording.eq_of_words hd (Option.some.inj hm)))
      | cons frame outer =>
        exact .inl (congrArg some (frame.rewording.eq_of_words hd (Option.some.inj hm)))
  | done result u => exact .inl hm

/-- Where the frames are unwound because instances are nested too deeply, a request has been
refused. -/
theorem exists_refused_of_raised? {m : Machine α} {d : Diagnostic} (hd : d.isTooDeep = true)
    (hm : m.raised? = none) : ∀ n : Nat, (step^[n] m).raised? = some d →
      ∃ k q, (step^[k] m).request? = some q ∧ q.IsRefused ∧ q.refusal = d
  | 0, hn => by
    rw [Function.iterate_zero_apply, hm] at hn
    cases hn
  | n + 1, hn => by
    rw [Function.iterate_succ_apply'] at hn
    rcases raised?_of_step hd hn with hbefore | ⟨q, hq⟩
    · exact exists_refused_of_raised? hd hm n hbefore
    · exact ⟨n, q, hq⟩

end Machine

/-! ### The limit -/

/-- A dialogue is carried out within a limit, and comes to an outcome. -/
structure Dialogue.StaysWithin (limit : Nat) (D : Dialogue α)
    (outcome : Except Diagnostic α × Session) : Prop where
  terminates : (Machine.outside D).Reaches (.done outcome.1 outcome.2)
  /-- At no moment more instances are being made than the limit allows. -/
  frames_le : ∀ m, (Machine.outside D).Reaches m → m.frames ≤ limit
  /-- The limit is reported exactly when one more instance is asked for than it allows. -/
  depthExceeded_iff : ∀ (name : String) (span : Span),
    outcome.1 = .error ⟨.depthExceeded name limit, span⟩ ↔
      ∃ m q, (Machine.outside D).Reaches m ∧ m.frames = limit ∧ m.request? = some q ∧
        (q.session.table.symbol q.template).name = name ∧ q.span = span
  /-- No other depth is reported. -/
  depth_eq : ∀ (name : String) (depth : Nat) (span : Span),
    outcome.1 = .error ⟨.depthExceeded name depth, span⟩ → depth = limit

section

open Machine

variable {config : Config} {D : Dialogue α} {d : Diagnostic}

theorem Machine.Nests.refusal_eq {m : Machine α} (hm : m.Nests config) {q : Request}
    (hq : m.request? = some q) : q.refusal =
      ⟨.depthExceeded (q.session.table.symbol q.template).name config.maxDepth, q.span⟩ := by
  obtain ⟨_, hconfig⟩ := Prod.mk.inj (hm.level_request hq)
  rw [Request.refusal, hconfig]

/-- A refused request is the outcome. -/
theorem outcome_of_isRefused {m : Machine α} (hm : (outside D).Reaches m) {q : Request}
    (hq : m.request? = some q) (hrefused : q.IsRefused) :
    (D.play instantiate).1 = .error q.refusal := by
  obtain ⟨n, rfl⟩ := hm
  obtain ⟨k, hk⟩ := reaches_done D
  have htooDeep : q.refusal.isTooDeep = true := rfl
  have hraised := raised?_iterate htooDeep (raised?_step_of_isRefused hq hrefused) k
  rw [← Function.iterate_succ_apply' step, ← Function.iterate_add_apply, Nat.add_comm,
    Function.iterate_add_apply, hk, iterate_done] at hraised
  generalize (D.play instantiate).1 = result at hraised ⊢
  cases result with
  | ok a => cases hraised
  | error e => exact congrArg _ (Option.some.inj hraised)

/-- Where instances are nested too deeply, a request is refused. -/
theorem exists_isRefused (houtcome : (D.play instantiate).1 = .error d) (hd : d.isTooDeep = true) :
    ∃ m q, (outside D).Reaches m ∧ m.request? = some q ∧ q.IsRefused ∧ q.refusal = d := by
  obtain ⟨n, hn⟩ := reaches_done D
  have hraised : (step^[n] (outside D)).raised? = some d := by
    rw [hn, houtcome]
    rfl
  obtain ⟨k, q, hq⟩ := exists_refused_of_raised? hd rfl n hraised
  exact ⟨_, q, ⟨k, rfl⟩, hq⟩

/-- Whatever a step is, it is carried out within the limit. -/
theorem Dialogue.IsAt.staysWithin (hD : D.IsAt (0, config)) :
    D.StaysWithin config.maxDepth (D.play instantiate) := by
  have hnests : ∀ m, (outside D).Reaches m → m.Nests config := fun _ hm =>
    (Nests.outside hD).of_reaches hm
  constructor
  case terminates => exact reaches_done D
  case frames_le => exact fun m hm => (hnests m hm).frames_le
  case depthExceeded_iff =>
    intro name span
    constructor
    · intro houtcome
      obtain ⟨m, q, hm, hq, hrefused, heq⟩ := exists_isRefused houtcome rfl
      rw [(hnests m hm).refusal_eq hq] at heq
      injection heq with hcause hspan
      injection hcause with hname _
      exact ⟨m, q, hm, ((hnests m hm).isRefused_iff hq).mp hrefused, hq, hname, hspan⟩
    · rintro ⟨m, q, hm, hframes, hq, rfl, rfl⟩
      have hrefused := ((hnests m hm).isRefused_iff hq).mpr hframes
      rw [outcome_of_isRefused hm hq hrefused, (hnests m hm).refusal_eq hq]
  case depth_eq =>
    intro name depth span houtcome
    obtain ⟨m, q, hm, hq, _, heq⟩ := exists_isRefused houtcome rfl
    rw [(hnests m hm).refusal_eq hq] at heq
    injection heq with hcause _
    injection hcause with _ hdepth
    exact hdepth.symm

end

namespace Session

/-- Outside of all instances, a step that asks for instances is a dialogue that is carried out
within the limit. -/
theorem exists_staysWithin {config : Config} {s : Session} (hs : (start config).Run s)
    {x : Instantiator → Analysis α} (hx : Converses x) :
    ∃ D : Dialogue α, D.Represents x s ∧
      D.StaysWithin config.maxDepth (exec (x instantiate) s) := by
  obtain ⟨D, hD⟩ := hx s
  obtain ⟨_, hgrows⟩ := hs.preserves (.start config)
  have hlevel : s.level = (0, config) := Prod.ext hgrows.depth hgrows.config
  refine ⟨D, hD, ?_⟩
  rw [← hD.play_eq instantiate]
  exact (hlevel ▸ hD.isAt).staysWithin

/-- In every session that operations reach, instantiating a template, binding arguments and
resolving a type come to an end, whatever the templates are: as dialogues that ask for one
instance inside of another, they never have more of them being made than the limit allows. They
fail because instances are nested too deeply exactly if one more is asked for, with the limit for
the depth, and with the template and the place of this request. -/
theorem nesting_within_limit {config : Config} {s : Session} (hs : (start config).Run s) :
    (∀ (template : SymbolId) (arguments : List Node) (span : Span),
      ∃ D : Dialogue SymbolId, D.Represents (fun inst => inst template arguments span) s ∧
        D.StaysWithin config.maxDepth (exec (instantiate template arguments span) s)) ∧
    (∀ (template : SymbolId) (supplied : List Node) (span : Span),
      ∃ D : Dialogue Arguments,
        D.Represents
          (fun inst => do return (← bindSources inst template supplied span).arguments) s ∧
        D.StaysWithin config.maxDepth (exec (bindArguments template supplied span) s)) ∧
    (∀ (specifiers : Specifiers) (declarator : Declarator) (span : Span),
      ∃ D : Dialogue TypeId,
        D.Represents (fun inst => resolveType inst specifiers declarator span) s ∧
        D.StaysWithin config.maxDepth
          (exec (resolveType instantiate specifiers declarator span) s)) := by
  refine ⟨?_, ?_, ?_⟩
  · intro template arguments span
    exact exists_staysWithin hs (.ask template arguments span)
  · intro template supplied span
    exact exists_staysWithin hs
      (.bind (.bindSources template supplied span) fun bound => .pure bound.arguments)
  · intro specifiers declarator span
    exact exists_staysWithin hs (.resolveType specifiers declarator span)

/-- A template `Grow` has `Grow` of a pointer to its argument for a base. With two nested
instances as the limit, its instance for `int` asks for a third one inside of two, and fails. -/
theorem nesting_within_limit_grow :
    let grow := (Operation.declareClass "Grow" .structKey .synthesized).after
      ((Operation.beginTemplate [⟨"T", .type, none, false, none, .synthesized⟩]
        .synthesized).after (start ⟨2, true⟩))
    let pointer : Node := .typeId ⟨.empty, some (.typeParameter "T" 0 .synthesized)⟩
      [.pointer .none .synthesized] .synthesized
    let s := (Operation.defineClass ⟨1⟩ ⟨.structKey, "Grow",
      [⟨.publicly, false, .templateId ⟨1⟩ "Grow" [pointer] .synthesized, false, .synthesized⟩],
      [], .synthesized⟩).after grow
    let int : Node := .typeId ⟨.singleton .int, none⟩ [] .synthesized
    (exec (instantiate ⟨1⟩ [int] .synthesized) s).1 =
      .error ⟨.depthExceeded "Grow" 2, .synthesized⟩ ∧
    ∃ (D : Dialogue SymbolId) (m : Machine SymbolId),
      D.Represents (fun inst => inst ⟨1⟩ [int] .synthesized) s ∧
      (Machine.outside D).Reaches m ∧ m.frames = 2 ∧ m.request?.isSome = true := by
  intro grow pointer s int
  have hgrow : grow.table.HasSymbol ⟨1⟩ := by decide +kernel
  have hrun : (start ⟨2, true⟩).Run s :=
    ((Run.refl.step _ .of_handles_nil).step _ .of_handles_nil).step _
      (.of_known (allKnown_cons_symbol hgrow (allKnown_cons_symbol hgrow AllKnown.nil)))
  have hfails : (exec (instantiate ⟨1⟩ [int] .synthesized) s).1 =
      .error ⟨.depthExceeded "Grow" 2, .synthesized⟩ := by decide +kernel
  obtain ⟨D, hD, hwithin⟩ := (nesting_within_limit hrun).1 ⟨1⟩ [int] .synthesized
  obtain ⟨m, q, hm, hframes, hq, _⟩ := (hwithin.depthExceeded_iff _ _).mp hfails
  exact ⟨hfails, D, m, hD, hm, hframes, by rw [hq, Option.isSome_some]⟩

end Session

end TemplateAnalysis
