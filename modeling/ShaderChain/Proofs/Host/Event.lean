import Mathlib.Tactic.Choose
import ShaderChain.Proofs.Outcome

/-!
# What is asked of a host

A host that is watched notes every request that it gets, with its answer, and
answers as before. What a computation asks for, in which order and what it makes
of the answers, is then a property of the events it leaves behind and of its
result, and this property holds whatever the answers are.

`Noted` says this of a computation on the watched host and of the same one on
the host itself: the two give the same results, and every result has the
property together with the events that led to it. It has a rule for each way
computations are put together, and the rule for one after another passes the
events of the first on to the property of the second (`Noted.bind`).
-/

set_option autoImplicit false

namespace ShaderChain

namespace Host

/-- What a host can be asked for. -/
inductive Request where
  | environment (name : String)
  | configHome
  | isFile (path : Path)
  | isDirectory (path : Path)
  | hasEntry (path : Path)
  | list (path : Path)
  | read (path : Path)
  | write (path : Path) (content : Bytes)
  | makeDirectories (path : Path)
  | openWorkspace
  | closeWorkspace (path : Path)
  | launch (invocation : Invocation)

/-- What a request is answered with. -/
def Request.Answer : Request → Type
  | environment _ => Option String
  | configHome => Option Path
  | isFile _ => Bool
  | isDirectory _ => Bool
  | hasEntry _ => Bool
  | list _ => Except IoError (List String)
  | read _ => Except IoError Bytes
  | write _ _ => Except IoError Unit
  | makeDirectories _ => Except IoError Unit
  | openWorkspace => Except IoError Path
  | closeWorkspace _ => Unit
  | launch _ => LaunchOutcome

/-- A request with its answer. -/
structure Event where
  request : Request
  answer : request.Answer

variable {m : Type → Type}

/-- The answer of a host to a request. -/
def ask (host : Host m) : (request : Request) → m request.Answer
  | .environment name => host.environment? name
  | .configHome => host.configHome
  | .isFile path => host.isFile path
  | .isDirectory path => host.isDirectory path
  | .hasEntry path => host.hasEntry path
  | .list path => host.list path
  | .read path => host.read path
  | .write path content => host.write path content
  | .makeDirectories path => host.makeDirectories path
  | .openWorkspace => host.openWorkspace
  | .closeWorkspace path => host.closeWorkspace path
  | .launch invocation => host.launch invocation

variable [Monad m]

/-- The answer of a host to a request, noted behind the events before. -/
def noting (host : Host m) (request : Request) : StateT (List Event) m request.Answer := do
  let answer ← host.ask request
  modify fun events => events ++ [⟨request, answer⟩]
  return answer

/-- The host, noting all that it is asked for. -/
def watched (host : Host m) : Host (StateT (List Event) m) where
  environment? name := host.noting (.environment name)
  configHome := host.noting .configHome
  isFile path := host.noting (.isFile path)
  isDirectory path := host.noting (.isDirectory path)
  hasEntry path := host.noting (.hasEntry path)
  list path := host.noting (.list path)
  read path := host.noting (.read path)
  write path content := host.noting (.write path content)
  makeDirectories path := host.noting (.makeDirectories path)
  openWorkspace := host.noting .openWorkspace
  closeWorkspace path := host.noting (.closeWorkspace path)
  launch invocation := host.noting (.launch invocation)

theorem run_noting [LawfulMonad m] (host : Host m) (request : Request) (events : List Event) :
    (host.noting request).run events =
      (fun answer => (answer, events ++ [⟨request, answer⟩])) <$> host.ask request := by
  rw [map_eq_pure_bind]
  simp only [noting, StateT.run_bind, StateT.run_monadLift, monadLift_self, bind_assoc, pure_bind,
    StateT.run_modify, StateT.run_pure]

/-- Running a program is launching it and judging what came of it. -/
theorem run_eq [LawfulMonad m] (host : Host m) (invocation : Invocation) :
    (host.run invocation : ExceptT ToolError m ProcessOutput) =
      (do liftM ((← liftM (host.launch invocation) : LaunchOutcome).toResult invocation) :
        ExceptT ToolError m ProcessOutput) := by
  refine ExceptT.ext ?_
  rw [ExceptT.run_bind]
  change (host.launch invocation >>= fun outcome => pure (outcome.toResult invocation)) =
    Except.ok <$> host.launch invocation >>= _
  rw [bind_map_left]
  rfl

end Host

/-! ## Computations on a watched host -/

open Host (Event Request)

variable {m : Type → Type} [Monad m] {α β : Type}

/-- A computation on a watched host gives what the one on the host gives, and each result has a
property together with the events that were noted for it. -/
def Noted (property : List Event → Except ToolError α → Prop)
    (watched : ExceptT ToolError (StateT (List Event) m) α) (plain : ExceptT ToolError m α) : Prop :=
  ∃ proven : m {out : List Event × Except ToolError α // property out.1 out.2},
    plain.run = (fun out => out.1.2) <$> proven ∧
    ∀ before, watched.run.run before = (fun out => (out.1.2, before ++ out.1.1)) <$> proven

namespace Noted

variable [LawfulMonad m] {p q : List Event → Except ToolError α → Prop}
  {watched : ExceptT ToolError (StateT (List Event) m) α} {plain : ExceptT ToolError m α}

/-- Noting changes nothing about the results. -/
theorem run'_eq (noted : Noted p watched plain) (before : List Event) :
    watched.run.run' before = plain.run := by
  obtain ⟨proven, isPlain, isWatched⟩ := noted
  rw [StateT.run'_eq, isWatched, isPlain, Functor.map_map]

/-- Every result has the property together with its events. -/
theorem always (noted : Noted p watched plain) :
    Always (fun out => p out.2 out.1) (watched.run.run []) := by
  obtain ⟨proven, _, isWatched⟩ := noted
  refine ⟨(fun out => ⟨(out.1.2, out.1.1), out.2⟩) <$> proven, ?_⟩
  rw [isWatched, Functor.map_map]
  rfl

/-- A result that is already known leaves no event behind. -/
theorem known {result : Except ToolError α} (holds : p [] result) :
    Noted p (liftM result : ExceptT ToolError (StateT (List Event) m) α)
      (liftM result : ExceptT ToolError m α) := by
  refine ⟨Pure.pure ⟨([], result), holds⟩, ?_, fun before => ?_⟩
  · rw [map_pure]
    rfl
  · rw [map_pure, List.append_nil]
    rfl

theorem pure {a : α} (holds : p [] (.ok a)) :
    Noted p (Pure.pure a : ExceptT ToolError (StateT (List Event) m) α)
      (Pure.pure a : ExceptT ToolError m α) :=
  known (m := m) holds

theorem throw {error : ToolError} (holds : p [] (.error error)) :
    Noted p (MonadExcept.throw error : ExceptT ToolError (StateT (List Event) m) α)
      (MonadExcept.throw error : ExceptT ToolError m α) :=
  known (m := m) holds

theorem mono (noted : Noted p watched plain) (weaken : ∀ events result, p events result →
    q events result) : Noted q watched plain := by
  obtain ⟨proven, isPlain, isWatched⟩ := noted
  refine ⟨(fun out => ⟨out.1, weaken _ _ out.2⟩) <$> proven, ?_, fun before => ?_⟩
  · rw [isPlain, Functor.map_map]
  · rw [isWatched, Functor.map_map]

/-- A request leaves one event behind. -/
theorem ask (host : Host m) (request : Request) :
    Noted (fun events result => ∃ answer, events = [⟨request, answer⟩] ∧ result = .ok answer)
      (liftM (host.noting request) : ExceptT ToolError (StateT (List Event) m) request.Answer)
      (liftM (host.ask request) : ExceptT ToolError m request.Answer) := by
  refine ⟨(fun answer => ⟨([⟨request, answer⟩], .ok answer), answer, rfl, rfl⟩) <$>
    host.ask request, ?_, fun before => ?_⟩
  · rw [Functor.map_map]
    rfl
  · rw [Functor.map_map]
    change (Except.ok <$> host.noting request).run before = _
    rw [StateT.run_map, Host.run_noting, Functor.map_map]

/-- What a computation ends in, taken as a value. -/
theorem settled (noted : Noted p watched plain) :
    Noted (fun events result => ∃ inner, result = .ok inner ∧ p events inner)
      (ShaderChain.settled watched) (ShaderChain.settled plain) := by
  obtain ⟨proven, isPlain, isWatched⟩ := noted
  refine ⟨(fun out => ⟨(out.1.1, .ok out.1.2), out.1.2, rfl, out.2⟩) <$> proven, ?_,
    fun before => ?_⟩
  · change Except.ok <$> plain.run = _
    rw [isPlain, Functor.map_map, Functor.map_map]
  · change (Except.ok <$> watched.run).run before = _
    rw [StateT.run_map, isWatched, Functor.map_map, Functor.map_map]

/-- **One computation after another.** A failure of the first is one of both; behind a value of
the first the property is about the events of both. -/
theorem bind {r : List Event → Except ToolError β → Prop}
    {nextWatched : α → ExceptT ToolError (StateT (List Event) m) β}
    {next : α → ExceptT ToolError m β} (first : Noted p watched plain)
    (fails : ∀ events error, p events (.error error) → r events (.error error))
    (goesOn : ∀ before a, p before (.ok a) →
      Noted (fun events result => r (before ++ events) result) (nextWatched a) (next a)) :
    Noted r (watched >>= nextWatched) (plain >>= next) := by
  obtain ⟨proven, isPlain, isWatched⟩ := first
  unfold Noted at goesOn
  choose later isNext isNextWatched using goesOn
  let step : {out : List Event × Except ToolError α // p out.1 out.2} →
      m {out : List Event × Except ToolError β // r out.1 out.2} := fun out =>
    match out with
    | ⟨(events, .error error), holds⟩ => Pure.pure ⟨(events, .error error), fails _ _ holds⟩
    | ⟨(events, .ok a), holds⟩ =>
      (fun out => ⟨(events ++ out.1.1, out.1.2), out.2⟩) <$> later events a holds
  refine ⟨proven >>= step, ?_, fun before => ?_⟩
  · rw [ExceptT.run_bind, isPlain, bind_map_left, map_bind]
    refine bind_congr fun out => ?_
    obtain ⟨⟨events, result⟩, holds⟩ := out
    cases result with
    | error error =>
      change Pure.pure _ = _ <$> Pure.pure _
      rw [map_pure]
    | ok a =>
      change (next a).run = _ <$> _ <$> later events a holds
      rw [isNext events a holds, Functor.map_map]
  · rw [ExceptT.run_bind, StateT.run_bind, isWatched, bind_map_left, map_bind]
    refine bind_congr fun out => ?_
    obtain ⟨⟨events, result⟩, holds⟩ := out
    cases result with
    | error error =>
      change Pure.pure _ = _ <$> Pure.pure _
      rw [map_pure]
    | ok a =>
      change (nextWatched a).run.run (before ++ events) = _ <$> _ <$> later events a holds
      rw [isNextWatched events a holds, Functor.map_map]
      congr
      funext out
      rw [List.append_assoc]

/-- What is known is a failure or used as the value that it is. -/
theorem knowing {r : List Event → Except ToolError β → Prop} {x : Except ToolError α}
    {nextWatched : α → ExceptT ToolError (StateT (List Event) m) β}
    {next : α → ExceptT ToolError m β} (fails : ∀ error, x = .error error → r [] (.error error))
    (goesOn : ∀ a, x = .ok a → Noted r (nextWatched a) (next a)) :
    Noted r (liftM x >>= nextWatched) (liftM x >>= next) := by
  have known : Noted (fun events result => events = [] ∧ x = result)
      (liftM x : ExceptT ToolError (StateT (List Event) m) α) (liftM x : ExceptT ToolError m α) :=
    .known ⟨rfl, rfl⟩
  refine known.bind ?_ ?_
  · rintro events error ⟨rfl, isError⟩
    exact fails error isError
  · rintro events a ⟨rfl, isOk⟩
    exact goesOn a isOk

theorem read {r : List Event → Except ToolError β → Prop} {x : Except ToolError α} {a : α}
    {nextWatched : α → ExceptT ToolError (StateT (List Event) m) β}
    {next : α → ExceptT ToolError m β} (isKnown : x = .ok a)
    (goesOn : Noted r (nextWatched a) (next a)) :
    Noted r (liftM x >>= nextWatched) (liftM x >>= next) := by
  rw [isKnown]
  refine knowing (fun _ isError => ?_) fun b isOk => ?_
  · cases isError
  · cases isOk
    exact goesOn

/-- What is done behind a request begins with its answer. -/
theorem asking {r : List Event → Except ToolError β → Prop} (host : Host m) (request : Request)
    {nextWatched : request.Answer → ExceptT ToolError (StateT (List Event) m) β}
    {next : request.Answer → ExceptT ToolError m β}
    (goesOn : ∀ answer, Noted (fun events result => r (⟨request, answer⟩ :: events) result)
      (nextWatched answer) (next answer)) :
    Noted r (liftM (host.noting request) >>= nextWatched)
      (liftM (host.ask request) >>= next) := by
  refine (ask host request).bind ?_ ?_
  · rintro events error ⟨_, _, isOk⟩
    cases isOk
  · rintro events answer ⟨_, rfl, same⟩
    cases same
    exact goesOn answer

/-- What is done behind a computation whose end is taken as a value is done however it ended. -/
theorem settling {r : List Event → Except ToolError β → Prop} (noted : Noted p watched plain)
    {nextWatched : Except ToolError α → ExceptT ToolError (StateT (List Event) m) β}
    {next : Except ToolError α → ExceptT ToolError m β}
    (goesOn : ∀ before inner, p before inner →
      Noted (fun events result => r (before ++ events) result) (nextWatched inner) (next inner)) :
    Noted r (ShaderChain.settled watched >>= nextWatched) (ShaderChain.settled plain >>= next) := by
  refine noted.settled.bind ?_ ?_
  · rintro events error ⟨_, isOk, _⟩
    cases isOk
  · rintro before inner ⟨_, same, holds⟩
    cases same
    exact goesOn before inner holds

/-! ## Workspaces -/

variable {r : List Event → Except ToolError α → Prop}
  {useWatched : Workspace → ExceptT ToolError (StateT (List Event) m) α}
  {use : Workspace → ExceptT ToolError m α}

/-- Work with an input begins with writing it. -/
theorem withInput (host : Host m) (w : Workspace) (input : Artifact)
    (fails : ∀ cause,
      r [⟨.write w.input input.payload.bytes, .error cause⟩] (.error (.io cause)))
    (uses : Noted (fun later result =>
      r (⟨.write w.input input.payload.bytes, .ok ()⟩ :: later) result) (useWatched w) (use w)) :
    Noted r (host.watched.withInput w input useWatched) (host.withInput w input use) := by
  refine asking host (.write w.input input.payload.bytes) fun written => ?_
  cases written with
  | ok _ => exact uses
  | error cause => exact .throw (fails cause)

/-- Work in a workspace stands between opening and closing it, however it ended. -/
theorem inWorkspace {p : Workspace → List Event → Except ToolError α → Prop} (host : Host m)
    (input : Artifact)
    (fails : ∀ cause, r [⟨.openWorkspace, .error cause⟩] (.error (.io cause)))
    (closes : ∀ root work result, p (.inDirectory root input.language) work result →
      r (⟨.openWorkspace, .ok root⟩ :: (work ++ [⟨.closeWorkspace root, ()⟩])) result)
    (uses : ∀ w, Noted (p w) (host.watched.withInput w input useWatched)
      (host.withInput w input use)) :
    Noted r (host.watched.inWorkspace input useWatched) (host.inWorkspace input use) := by
  refine asking host .openWorkspace fun opened => ?_
  cases opened with
  | error cause => exact .throw (fails cause)
  | ok root =>
    -- However the work ends, its result is kept until the workspace is closed.
    refine (uses (.inDirectory root input.language)).settling ?_
    intro work result worked
    refine asking host (.closeWorkspace root) fun _ => ?_
    exact .known (closes root work result worked)

end Noted

end ShaderChain
