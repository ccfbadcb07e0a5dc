import ShaderChain.Machine.Files
import ShaderChain.Proofs.Host
import ShaderChain.Proofs.Host.Event
import ShaderChain.Proofs.Path

/-!
# Workspaces that leave nothing behind

A workspace is opened at a place of the tree of files where nothing stood, and
what is done in it changes nothing outside of that place. When it is closed,
nothing stands there any more, so the whole tree is what it was.

What is relied on is a law of the host (`Host.Confines`): of opening and closing,
of writing a file in the workspace, and of programs, which write in the directory
they are run in and nowhere else. The tree of a state, and the place that the path
of a workspace leads to in it, are a view of the states (`Host.View`).

The argument has two halves. Events that the host answered one after another lead
from a state to a state (`Host.Leads`); one event that stays in the workspace
changes nothing outside of it, and so do all of them (`Host.Confines.works_leads`).
And a computation on a watched host can be followed from every state
(`Followed`): its events lead to the state that it ends in, and they have a property
that the rules put together as they put the computation together. The rule for a
workspace (`Followed.inWorkspace`) covers every way in which the work in it can end.

A computation that leaves the tree as it was from every state (`Host.View.Keeps`) may
be put together of such computations in any way, so what is said of one call of a tool
goes on to whatever calls tools and looks at files.
-/

set_option autoImplicit false

namespace ShaderChain

/-! ## Places of a tree -/

namespace Location

/-- Two trees are the same but at a place and below it. -/
def AgreeOutside (l : Location) (before after : Location → Option Entry) : Prop :=
  ∀ place, l.holds place = false → after place = before place

/-- Nothing stands at a place or below it. -/
def IsFree (l : Location) (tree : Location → Option Entry) : Prop :=
  ∀ place, l.holds place = true → tree place = none

variable {l : Location} {before between after : Location → Option Entry}

theorem AgreeOutside.refl (l : Location) (tree : Location → Option Entry) :
    AgreeOutside l tree tree :=
  fun _ _ => rfl

theorem AgreeOutside.trans (first : AgreeOutside l before between)
    (second : AgreeOutside l between after) : AgreeOutside l before after :=
  fun place outside => (second place outside).trans (first place outside)

/-- Trees that are the same outside of a place where nothing stands are the same. -/
theorem AgreeOutside.eq_of_isFree (agree : AgreeOutside l before after)
    (freeBefore : IsFree l before) (freeAfter : IsFree l after) : after = before := by
  funext place
  cases inside : l.holds place with
  | false => exact agree place inside
  | true => rw [freeBefore place inside, freeAfter place inside]

end Location

open Location (AgreeOutside IsFree)

namespace Host

variable {σ : Type} {host : Host (StateM σ)}

/-! ## Events that lead from state to state -/

/-- Events lead from one state of a host to another: each has the answer that the host gives to its
request in the state where the events before it lead. -/
inductive Leads (host : Host (StateM σ)) : σ → List Event → σ → Prop where
  | nil {s : σ} : Leads host s [] s
  | cons {s t u : σ} {event : Event} {later : List Event}
      (answered : (host.ask event.request).run s = (event.answer, t))
      (onward : Leads host t later u) : Leads host s (event :: later) u

theorem Leads.trans {s t u : σ} {events later : List Event} (first : Leads host s events t)
    (second : Leads host t later u) : Leads host s (events ++ later) u := by
  induction first with
  | nil => exact second
  | cons answered _ ih => exact .cons answered (ih second)

/-- Events that lead somewhere lead there through a state between the first of them and the
last. -/
theorem Leads.exists_between {s u : σ} {events later : List Event}
    (leads : Leads host s (events ++ later) u) :
    ∃ t, Leads host s events t ∧ Leads host t later u := by
  induction events generalizing s with
  | nil => exact ⟨s, .nil, leads⟩
  | cons event rest ih =>
    cases leads with
    | cons answered onward =>
      obtain ⟨t, front, back⟩ := ih onward
      exact ⟨t, .cons answered front, back⟩

theorem Leads.answered {s t : σ} {event : Event} (leads : Leads host s [event] t) :
    (host.ask event.request).run s = (event.answer, t) := by
  cases leads with
  | cons answered onward =>
    cases onward
    exact answered

/-! ## What a host does to the tree -/

/-- A request that only asks what is there. -/
def Request.Looks : Request → Prop
  | environment _ | configHome | isFile _ | isDirectory _ | hasEntry _ | list _ | read _ => True
  | write _ _ | makeDirectories _ | openWorkspace | closeWorkspace _ | launch _ => False

/-- A request that stays in a directory: to read or write a file of it, or to run a program in
it. -/
def Request.Inside (root : Path) : Request → Prop
  | read path => ∃ name, Path.IsName name ∧ path = root.child name
  | write path _ => ∃ name, Path.IsName name ∧ path = root.child name
  | launch invocation => invocation.directory = root
  | _ => False

/-- A view of the states of a host. -/
structure View (σ : Type) where
  /-- What stands at each place. -/
  tree : σ → Location → Option Entry
  /-- Whether the path of an open workspace leads to a place. -/
  isAt : σ → Path → Location → Prop

/-- Whether what is done in a workspace is confined to it, from opening it at a free place to taking
it away. Programs write in the directory they are run in and nowhere else. -/
structure Confines (host : Host (StateM σ)) (view : View σ) : Prop where
  looks : ∀ s s' request answer, request.Looks → (host.ask request).run s = (answer, s') →
    view.tree s' = view.tree s
  refuses : ∀ s s' cause, host.openWorkspace.run s = (.error cause, s') →
    view.tree s' = view.tree s
  opens : ∀ s s' root, host.openWorkspace.run s = (.ok root, s') → ∃ l, view.isAt s' root l ∧
    IsFree l (view.tree s) ∧ AgreeOutside l (view.tree s) (view.tree s')
  works : ∀ s s' root l request answer, view.isAt s root l → request.Inside root →
    (host.ask request).run s = (answer, s') →
      view.isAt s' root l ∧ AgreeOutside l (view.tree s) (view.tree s')
  closes : ∀ s s' root l, view.isAt s root l → (host.closeWorkspace root).run s = ((), s') →
    IsFree l (view.tree s') ∧ AgreeOutside l (view.tree s) (view.tree s')

variable {view : View σ}

/-! ### Computations that leave the tree alone -/

namespace View

variable {ε α β : Type}

/-- From every state, a computation leaves the tree as it was. -/
def Keeps (view : View σ) (x : StateM σ α) : Prop := ∀ s, view.tree (x.run s).2 = view.tree s

namespace Keeps

theorem pure (a : α) : view.Keeps (Pure.pure a : StateM σ α) := fun _ => rfl

theorem tree_eq {x : StateM σ α} {a : α} {s t : σ} (keeps : view.Keeps x)
    (ran : x.run s = (a, t)) : view.tree t = view.tree s := by
  have kept := keeps s
  rwa [ran] at kept

theorem bind {x : StateM σ α} {next : α → StateM σ β} (first : view.Keeps x)
    (goesOn : ∀ a, view.Keeps (next a)) : view.Keeps (x >>= next) := by
  intro s
  rw [run_bind_of (Prod.eta (x.run s)).symm]
  exact (goesOn _ _).trans (first s)

/-- What is done behind a computation that cannot fail. -/
theorem bindLift {x : StateM σ α} {next : α → ExceptT ε (StateM σ) β} (first : view.Keeps x)
    (goesOn : ∀ a, view.Keeps (next a).run) :
    view.Keeps ((liftM x : ExceptT ε (StateM σ) α) >>= next).run := by
  have lifted : ((liftM x : ExceptT ε (StateM σ) α) >>= next).run =
      x >>= fun a => (next a).run := ExceptT.run_bind_lift x next
  rw [lifted]
  exact first.bind goesOn

/-- What is done behind a computation that may fail is not done if it does. -/
theorem bindExcept {x : ExceptT ε (StateM σ) α} {next : α → ExceptT ε (StateM σ) β}
    (first : view.Keeps x.run) (goesOn : ∀ a, view.Keeps (next a).run) :
    view.Keeps (x >>= next).run := by
  rw [ExceptT.run_bind]
  refine first.bind fun result => ?_
  cases result with
  | error error => exact .pure (Except.error error)
  | ok a => exact goesOn a

/-- Asking what is there keeps the tree. -/
theorem asking (confines : host.Confines view) (request : Request) (looks : request.Looks) :
    view.Keeps (host.ask request) :=
  fun s => confines.looks s _ request _ looks rfl

end Keeps

end View

/-! ### Workspaces that are gone -/

/-- **Work that stays in a workspace changes nothing outside of it,** however long it is. -/
theorem Confines.works_leads (confines : host.Confines view) {s s' : σ} {work : List Event}
    {root : Path} {l : Location} (leads : host.Leads s work s') (isAt : view.isAt s root l)
    (stays : ∀ e ∈ work, e.request.Inside root) :
    view.isAt s' root l ∧ AgreeOutside l (view.tree s) (view.tree s') := by
  induction leads with
  | nil => exact ⟨isAt, .refl l _⟩
  | cons answered _ ih =>
    obtain ⟨stillAt, first⟩ :=
      confines.works _ _ root l _ _ isAt (stays _ List.mem_cons_self) answered
    obtain ⟨atEnd, others⟩ := ih stillAt fun e member => stays e (List.mem_cons_of_mem _ member)
    exact ⟨atEnd, first.trans others⟩

/-- Events of work in a workspace of its own: it could not be opened, or everything between opening
and closing it is allowed in it. -/
inductive Enclosed (allowed : Path → Request → Prop) : List Event → Prop where
  | unopened (cause : IoError) : Enclosed allowed [⟨.openWorkspace, .error cause⟩]
  | closed {root : Path} {work : List Event} (stays : ∀ e ∈ work, allowed root e.request) :
      Enclosed allowed (⟨.openWorkspace, .ok root⟩ :: (work ++ [⟨.closeWorkspace root, ()⟩]))

/-- A workspace that was opened between two states is gone: it was made at a free place, and
nothing stands there any more. -/
def Gone (host : Host (StateM σ)) (view : View σ) (s s' : σ) (root : Path) : Prop :=
  ∃ opened l, host.openWorkspace.run s = (.ok root, opened) ∧ view.isAt opened root l ∧
    IsFree l (view.tree s) ∧ IsFree l (view.tree s')

/-- **Work in a workspace of its own leaves the tree as it was,** and the workspace is gone. -/
theorem Confines.leads_enclosed (confines : host.Confines view)
    {allowed : Path → Request → Prop} (inside : ∀ root request, allowed root request →
      request.Inside root) {s s' : σ} {events : List Event} (leads : host.Leads s events s')
    (enclosed : Enclosed allowed events) :
    view.tree s' = view.tree s ∧
      ∀ root later, events = ⟨.openWorkspace, .ok root⟩ :: later → host.Gone view s s' root := by
  cases enclosed with
  | unopened cause =>
    refine ⟨confines.refuses s s' cause leads.answered, ?_⟩
    rintro root later opened
    cases opened
  | @closed root work stays =>
    cases leads with
    | cons opening onward =>
      obtain ⟨atEnd, worked, closing⟩ := onward.exists_between
      obtain ⟨l, isAt, free, made⟩ := confines.opens _ _ root opening
      obtain ⟨stillAt, unchanged⟩ :=
        confines.works_leads worked isAt fun e member => inside root _ (stays e member)
      obtain ⟨gone, taken⟩ := confines.closes _ _ root l stillAt closing.answered
      refine ⟨((made.trans unchanged).trans taken).eq_of_isFree free gone, ?_⟩
      rintro _ later ⟨rfl, rfl⟩
      exact ⟨_, l, opening, isAt, free, gone⟩

end Host

/-! ## Computations that can be followed -/

open Host (Event Request)

variable {σ α β : Type}

/-- From every state, the events that a computation on a watched host leaves behind lead to the
state that it ends in, and they have a property. -/
def Followed (host : Host (StateM σ)) (property : List Event → Prop)
    (watched : ExceptT ToolError (StateT (List Event) (StateM σ)) α) : Prop :=
  ∀ before s, ∃ events result s', (watched.run.run before).run s = ((result, before ++ events), s') ∧
    host.Leads s events s' ∧ property events

namespace Followed

variable {host : Host (StateM σ)} {p q : List Event → Prop}
  {watched : ExceptT ToolError (StateT (List Event) (StateM σ)) α}

theorem known {x : Except ToolError α} (holds : p []) :
    Followed host p (liftM x : ExceptT ToolError (StateT (List Event) (StateM σ)) α) := by
  intro before s
  refine ⟨[], x, s, ?_, .nil, holds⟩
  rw [List.append_nil]
  rfl

theorem pure {a : α} (holds : p []) :
    Followed host p (Pure.pure a : ExceptT ToolError (StateT (List Event) (StateM σ)) α) :=
  known (x := .ok a) holds

theorem throw {error : ToolError} (holds : p []) :
    Followed host p
      (MonadExcept.throw error : ExceptT ToolError (StateT (List Event) (StateM σ)) α) :=
  known (x := .error error) holds

theorem mono (followed : Followed host p watched) (weaken : ∀ events, p events → q events) :
    Followed host q watched := by
  intro before s
  obtain ⟨events, result, s', ran, leads, holds⟩ := followed before s
  exact ⟨events, result, s', ran, leads, weaken events holds⟩

/-- What is known leaves no event behind, and what follows may rely on it. -/
theorem knowing {x : Except ToolError α}
    {next : α → ExceptT ToolError (StateT (List Event) (StateM σ)) β}
    (fails : p []) (goesOn : ∀ a, x = .ok a → Followed host p (next a)) :
    Followed host p (liftM x >>= next) := by
  cases x with
  | error error => exact known (x := .error error) fails
  | ok a => exact goesOn a rfl

theorem reading {x : Except ToolError α} {a : α}
    {next : α → ExceptT ToolError (StateT (List Event) (StateM σ)) β} (isKnown : x = .ok a)
    (goesOn : Followed host p (next a)) : Followed host p (liftM x >>= next) := by
  rw [isKnown]
  exact goesOn

/-- What is done behind a request begins with its answer. -/
theorem asking (request : Request)
    {next : request.Answer → ExceptT ToolError (StateT (List Event) (StateM σ)) α}
    (goesOn : ∀ answer, Followed host (fun later => p (⟨request, answer⟩ :: later)) (next answer)) :
    Followed host p (liftM (host.noting request) >>= next) := by
  intro before s
  cases answered : (host.ask request).run s with
  | mk answer t =>
    obtain ⟨later, result, s', ran, leads, holds⟩ :=
      goesOn answer (before ++ [⟨request, answer⟩]) t
    refine ⟨⟨request, answer⟩ :: later, result, s', ?_, .cons answered leads, holds⟩
    have noted : ((host.noting request).run before).run s =
        ((answer, before ++ [⟨request, answer⟩]), t) := by
      rw [Host.run_noting, StateT.run_map, answered]
      rfl
    rw [List.append_cons, ← ran]
    change (((host.noting request) >>= fun answer => (next answer).run).run before).run s = _
    rw [StateT.run_bind, run_bind_of noted]

/-- What is done behind a computation whose end is taken as a value is done however it ended. -/
theorem settling {next : Except ToolError α →
      ExceptT ToolError (StateT (List Event) (StateM σ)) β}
    (first : Followed host p watched)
    (goesOn : ∀ before, p before → ∀ inner,
      Followed host (fun later => q (before ++ later)) (next inner)) :
    Followed host q (ShaderChain.settled watched >>= next) := by
  intro before s
  obtain ⟨events, inner, t, ran, leads, holds⟩ := first before s
  obtain ⟨later, result, s', ranOn, onward, both⟩ := goesOn events holds inner (before ++ events) t
  refine ⟨events ++ later, result, s', ?_, leads.trans onward, both⟩
  rw [← List.append_assoc, ← ranOn]
  change ((watched.run >>= fun inner => (next inner).run).run before).run s = _
  rw [StateT.run_bind, run_bind_of ran]

/-! ### Requests of one kind -/

variable {allowed : Request → Prop}

/-- Every request is allowed. -/
abbrev All (allowed : Request → Prop) (events : List Event) : Prop :=
  ∀ e ∈ events, allowed e.request

/-- **One computation after another** asks for what is allowed if both do, also if the first
fails. -/
theorem bind {next : α → ExceptT ToolError (StateT (List Event) (StateM σ)) β}
    (first : Followed host (All allowed) watched)
    (goesOn : ∀ a, Followed host (All allowed) (next a)) :
    Followed host (All allowed) (watched >>= next) := by
  intro before s
  obtain ⟨events, result, t, ran, leads, front⟩ := first before s
  cases result with
  | error error =>
    refine ⟨events, .error error, t, ?_, leads, front⟩
    rw [ExceptT.run_bind, StateT.run_bind, run_bind_of ran]
    rfl
  | ok a =>
    obtain ⟨later, result, s', ranOn, onward, back⟩ := goesOn a (before ++ events) t
    refine ⟨events ++ later, result, s', ?_, leads.trans onward,
      List.forall_mem_append.2 ⟨front, back⟩⟩
    rw [ExceptT.run_bind, StateT.run_bind, run_bind_of ran, ← List.append_assoc]
    exact ranOn

/-- A request that is allowed may stand in front of others. -/
theorem allowing (request : Request) (isAllowed : allowed request)
    {next : request.Answer → ExceptT ToolError (StateT (List Event) (StateM σ)) α}
    (goesOn : ∀ answer, Followed host (All allowed) (next answer)) :
    Followed host (All allowed) (liftM (host.noting request) >>= next) :=
  asking request fun answer => (goesOn answer).mono fun _ others =>
    List.forall_mem_cons.2 ⟨isAllowed, others⟩

/-! ### Work in a workspace -/

variable (host) (w : Workspace)

theorem run {program : Path} {arguments : List String} {limit : Duration}
    (isAllowed : allowed (.launch ⟨program, arguments, w.root, limit⟩)) :
    Followed host (All allowed) (w.run host.watched program arguments limit) := by
  rw [Workspace.run, Host.run_eq]
  exact allowing (.launch _) isAllowed fun outcome => known nofun

theorem runChecked {program : Path} {arguments : List String} {limit : Duration}
    (isAllowed : allowed (.launch ⟨program, arguments, w.root, limit⟩)) :
    Followed host (All allowed) (w.runChecked host.watched program arguments limit) :=
  (run host w isAllowed).bind fun _ => known nofun

theorem readBytes {name : String} (isAllowed : allowed (.read (w.path name))) :
    Followed host (All allowed) (w.readBytes host.watched name) := by
  refine allowing (.read _) isAllowed fun content => ?_
  cases content with
  | ok bytes => exact .pure nofun
  | error cause =>
    dsimp only
    split
    · exact .throw nofun
    · exact .throw nofun

theorem readText {name : String} (isAllowed : allowed (.read (w.path name))) :
    Followed host (All allowed) (w.readText host.watched name) :=
  (readBytes host w isAllowed).bind fun _ => .pure nofun

theorem readTextIfThere {name : String} (isAllowed : allowed (.read (w.path name))) :
    Followed host (All allowed) (w.readTextIfThere host.watched name) := by
  refine (readText host w isAllowed).settling fun events front content => ?_
  have more : ∀ later, All allowed later → All allowed (events ++ later) :=
    fun later back => List.forall_mem_append.2 ⟨front, back⟩
  cases content with
  | ok text => exact .pure (more [] nofun)
  | error error =>
    cases error with
    | missingOutput path => exact .pure (more [] nofun)
    | _ => exact .throw (more [] nofun)

/-- **Work in a workspace of its own is enclosed,** however it ends: at its input, in the middle or
with a value. -/
theorem inWorkspace {allowed : Path → Request → Prop} (input : Artifact)
    {use : Workspace → ExceptT ToolError (StateT (List Event) (StateM σ)) α}
    (writes : ∀ root, allowed root
      (.write (Workspace.inDirectory root input.language).input input.payload.bytes))
    (uses : ∀ root, Followed host (All (allowed root)) (use (.inDirectory root input.language))) :
    Followed host (Host.Enclosed allowed) (host.watched.inWorkspace input use) := by
  refine asking .openWorkspace fun opened => ?_
  cases opened with
  | error cause => exact .throw (.unopened cause)
  | ok root =>
    have work : Followed host (All (allowed root))
        (host.watched.withInput (.inDirectory root input.language) input use) := by
      refine allowing (.write _ _) (writes root) fun written => ?_
      cases written with
      | ok _ => exact uses root
      | error cause => exact .throw nofun
    -- However the work ended, the workspace is closed behind it.
    refine work.settling fun events stays result => ?_
    refine asking (.closeWorkspace root) fun _ => ?_
    exact .known (.closed stays)

end Followed

end ShaderChain
