import ShaderChain.Proofs.Host.Event

/-!
# Hosts in an environment

What a host answers may depend on everything that it was asked for before, and
on what it answered. Such an environment is a function of the past and of the
request (`Environment`), and computations on its host go on from a past.

Two environments may be told apart only when a program is launched for the second
time (`Environment.AgreeUntilSecondLaunch`). Computations that launch one program
at most are then in lockstep: they end in the same result, with the same past
(`Lockstep`). Behind them the two may part, and what the results have to do with
each other is then a relation that holds of every common failure
(`Related.bind`). A workspace keeps such a relation, since nothing but its closing
follows the work in it (`Related.inWorkspace`).
-/

set_option autoImplicit false

namespace ShaderChain

open Host (Event Request)

/-! ## Environments -/

namespace Host

/-- How many programs a request launches. -/
def Request.launches : Request → Nat
  | launch _ => 1
  | _ => 0

/-- How many programs were launched in the past. -/
def launches : List Event → Nat
  | [] => 0
  | event :: past => event.request.launches + launches past

@[simp]
theorem launches_nil : launches [] = 0 := rfl

@[simp]
theorem launches_cons (event : Event) (past : List Event) :
    launches (event :: past) = event.request.launches + launches past := rfl

@[simp]
theorem launches_append (past more : List Event) :
    launches (past ++ more) = launches past + launches more := by
  induction past with
  | nil => rw [List.nil_append, launches_nil, Nat.zero_add]
  | cons event past ih => rw [List.cons_append, launches_cons, launches_cons, ih, Nat.add_assoc]

end Host

open Host (launches)

/-- What requests are answered with. An answer may depend on all that was asked and answered
before. -/
def Environment : Type := (past : List Event) → (request : Request) → request.Answer

namespace Environment

/-- The answer to a request, which then belongs to the past. -/
def answer (e : Environment) (request : Request) : StateM (List Event) request.Answer := do
  let past ← get
  set (past ++ [⟨request, e past request⟩])
  return e past request

/-- The host of an environment. -/
def host (e : Environment) : Host (StateM (List Event)) where
  environment? name := e.answer (.environment name)
  configHome := e.answer .configHome
  isFile path := e.answer (.isFile path)
  isDirectory path := e.answer (.isDirectory path)
  hasEntry path := e.answer (.hasEntry path)
  list path := e.answer (.list path)
  read path := e.answer (.read path)
  write path content := e.answer (.write path content)
  makeDirectories path := e.answer (.makeDirectories path)
  openWorkspace := e.answer .openWorkspace
  closeWorkspace path := e.answer (.closeWorkspace path)
  launch invocation := e.answer (.launch invocation)

/-- Two environments that answer alike as long as one program was launched at most, the request
included. -/
def AgreeUntilSecondLaunch (e f : Environment) : Prop :=
  ∀ past request, launches past + request.launches ≤ 1 → e past request = f past request

/-- A computation that goes on from a past. -/
abbrev Run (α : Type) : Type := ExceptT ToolError (StateM (List Event)) α

variable {α β : Type}

/-- How a computation ends: its result and the past then. -/
abbrev End (α : Type) : Type := Except ToolError α × List Event

/-- The end of a computation that goes on from a past. -/
def Run.from (x : Run α) (past : List Event) : End α := x.run.run past

theorem from_bind (x : Run α) (g : α → Run β) (past : List Event) :
    Run.from (x >>= g) past =
      match x.from past with
      | (.ok a, next) => (g a).from next
      | (.error error, next) => (.error error, next) := by
  unfold Run.from
  rw [ExceptT.run_bind, StateT.run_bind]
  rcases x.run.run past with ⟨result, next⟩
  cases result with
  | ok a => rfl
  | error error => rfl

/-! ## Lockstep -/

/-- From every past with at most `n` launches two computations end alike, in one past with at most
`k` launches. -/
def Lockstep (n k : Nat) (x y : Run α) : Prop :=
  ∀ past, launches past ≤ n → x.from past = y.from past ∧ launches (x.from past).2 ≤ k

namespace Lockstep

variable {e f : Environment} {n k l : Nat} {x y : Run α}

/-- What is known is the same everywhere. -/
theorem known (n : Nat) (result : Except ToolError α) :
    Lockstep n n (liftM result : Run α) (liftM result) :=
  fun _ few => ⟨rfl, few⟩

/-- A request is answered alike if it is not for a second launch. -/
theorem ask (agree : e.AgreeUntilSecondLaunch f) (request : Request)
    (few : n + request.launches ≤ 1) :
    Lockstep n (n + request.launches) (liftM (e.answer request) : Run request.Answer)
      (liftM (f.answer request)) := by
  intro past atMost
  have same : e past request = f past request := agree past request (by omega)
  constructor
  · change (Except.ok (e past request), past ++ [⟨request, e past request⟩]) =
      (Except.ok (f past request), past ++ [⟨request, f past request⟩])
    rw [same]
  · change launches (past ++ [⟨request, e past request⟩]) ≤ n + request.launches
    simp only [Host.launches_append, Host.launches_cons, Host.launches_nil]
    omega

/-- **One computation after another.** -/
theorem bind {g h : α → Run β} (first : Lockstep n k x y) (le : k ≤ l)
    (goesOn : ∀ a, Lockstep k l (g a) (h a)) : Lockstep n l (x >>= g) (y >>= h) := by
  intro past few
  obtain ⟨same, atMost⟩ := first past few
  rw [from_bind, from_bind, ← same]
  revert atMost
  rcases x.from past with ⟨result, next⟩
  intro atMost
  cases result with
  | ok a => exact goesOn a next atMost
  | error error => exact ⟨rfl, Nat.le_trans atMost le⟩

/-- What a computation ends in, taken as a value. -/
theorem settled (lockstep : Lockstep n k x y) :
    Lockstep n k (ShaderChain.settled x) (ShaderChain.settled y) := by
  intro past few
  obtain ⟨same, atMost⟩ := lockstep past few
  change (Except.ok (x.from past).1, (x.from past).2) =
      (Except.ok (y.from past).1, (y.from past).2) ∧ launches (x.from past).2 ≤ k
  rw [← same]
  exact ⟨rfl, atMost⟩

/-! ## Lockstep in a workspace -/

variable (agree : e.AgreeUntilSecondLaunch f) (w : Workspace)
include agree

/-- The first program that is run comes to the same. -/
theorem run (program : Path) (arguments : List String) (limit : Duration) :
    Lockstep 0 1 (w.run e.host program arguments limit) (w.run f.host program arguments limit) := by
  rw [Workspace.run, Workspace.run, Host.run_eq, Host.run_eq]
  exact (ask agree (.launch _) (Nat.le_refl 1)).bind (Nat.le_refl 1) fun _ => known 1 _

theorem runChecked (program : Path) (arguments : List String) (limit : Duration) :
    Lockstep 0 1 (w.runChecked e.host program arguments limit)
      (w.runChecked f.host program arguments limit) :=
  (run agree w program arguments limit).bind (Nat.le_refl 1) fun _ => known 1 _

/-- Files are read alike after the first program. -/
theorem readBytes (name : String) :
    Lockstep 1 1 (w.readBytes e.host name) (w.readBytes f.host name) := by
  refine (ask agree (.read (w.path name)) (Nat.le_refl 1)).bind (Nat.le_refl 1) fun content => ?_
  cases content with
  | ok bytes => exact known 1 (.ok bytes)
  | error cause =>
    dsimp only
    split
    · exact known 1 (.error _)
    · exact known 1 (.error _)

theorem readText (name : String) :
    Lockstep 1 1 (w.readText e.host name) (w.readText f.host name) :=
  (readBytes agree w name).bind (Nat.le_refl 1) fun _ => known 1 (.ok _)

theorem readTextIfThere (name : String) :
    Lockstep 1 1 (w.readTextIfThere e.host name) (w.readTextIfThere f.host name) := by
  refine (readText agree w name).settled.bind (Nat.le_refl 1) fun content => ?_
  cases content with
  | ok text => exact known 1 (.ok _)
  | error error =>
    cases error with
    | missingOutput path => exact known 1 (.ok _)
    | spawn program cause => exact known 1 (.error _)
    | timeout program limit => exact known 1 (.error _)
    | io cause => exact known 1 (.error _)
    | failed exitCode diagnostics => exact known 1 (.error _)
    | missingArgument name => exact known 1 (.error _)
    | argumentType name expected => exact known 1 (.error _)

end Lockstep

/-! ## Behind the lockstep -/

/-- A relation of ends that holds of a failure and itself, behind one launch at most. -/
def AllowsFailures (relation : End α → End α → Prop) : Prop :=
  ∀ error past, launches past ≤ 1 → relation (.error error, past) (.error error, past)

/-- The end of a computation behind which a workspace is closed. -/
def End.closed (root : Path) (out : End α) : End α :=
  (out.1, out.2 ++ [⟨.closeWorkspace root, ()⟩])

/-- Closing a workspace launches nothing. -/
theorem AllowsFailures.closed {relation : End α → End α → Prop} (allows : AllowsFailures relation)
    (root : Path) :
    AllowsFailures fun left right => relation (left.closed root) (right.closed root) := by
  intro error past once
  refine allows error _ ?_
  simpa [Host.Request.launches] using once

/-- From every past with at most `n` launches two computations end in what is related. -/
def Related (n : Nat) (relation : End α → End α → Prop) (x y : Run α) : Prop :=
  ∀ past, launches past ≤ n → relation (x.from past) (y.from past)

namespace Related

variable {e f : Environment} {n k : Nat} {relation : End β → End β → Prop}

/-- **What is done behind computations in lockstep** ends in what is related, if common failures
are. -/
theorem bind {x y : Run α} {g h : α → Run β} (allows : AllowsFailures relation)
    (first : Lockstep n k x y) (once : k ≤ 1) (goesOn : ∀ a, Related k relation (g a) (h a)) :
    Related n relation (x >>= g) (y >>= h) := by
  intro past few
  obtain ⟨same, atMost⟩ := first past few
  rw [from_bind, from_bind, ← same]
  revert atMost
  rcases x.from past with ⟨result, next⟩
  intro atMost
  cases result with
  | ok a => exact goesOn a next atMost
  | error error => exact allows error next (Nat.le_trans atMost once)

/-- What is known is the same failure or the same value for both. -/
theorem knowing {x : Except ToolError α} {g h : α → Run β} (allows : AllowsFailures relation)
    (once : n ≤ 1) (goesOn : ∀ a, x = .ok a → Related n relation (g a) (h a)) :
    Related n relation (liftM x >>= g) (liftM x >>= h) := by
  cases x with
  | ok a => exact goesOn a rfl
  | error error =>
    intro past few
    exact allows error past (Nat.le_trans few once)

/-- **Work in a workspace** ends in what is related, if closing the workspace leads there. -/
theorem inWorkspace (agree : e.AgreeUntilSecondLaunch f) (allows : AllowsFailures relation)
    (input : Artifact) {use use' : Workspace → Run β}
    (uses : ∀ w, Related 0 (fun left right => relation (left.closed w.root) (right.closed w.root))
      (use w) (use' w)) :
    Related 0 relation (e.host.inWorkspace input use) (f.host.inWorkspace input use') := by
  refine bind allows (Lockstep.ask agree .openWorkspace (Nat.zero_le 1)) (Nat.zero_le 1) ?_
  intro opened
  cases opened with
  | error cause =>
    intro past few
    exact allows (.io cause) past (Nat.le_trans few (Nat.zero_le 1))
  | ok root =>
    let w := Workspace.inDirectory root input.language
    have allowsClosed := allows.closed root
    have worked : Related 0 (fun left right => relation (left.closed root) (right.closed root))
        (e.host.withInput w input use) (f.host.withInput w input use') := by
      refine bind allowsClosed (Lockstep.ask agree (.write w.input input.payload.bytes)
        (Nat.zero_le 1)) (Nat.zero_le 1) ?_
      intro written
      cases written with
      | ok _ => exact uses w
      | error cause =>
        intro past few
        exact allowsClosed (.io cause) past (Nat.le_trans few (Nat.zero_le 1))
    exact worked

end Related

end Environment

end ShaderChain
