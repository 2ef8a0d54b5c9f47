import InfiniRT.Pool.Invariant
import InfiniRT.Pool.StoreView

/-!
# Warming the pool up

A script that gives back everything it allocates runs a second time without a backend allocation,
so also while growth is refused.  The state is read as a `Store`: the first run is a run of the
store, after it the store holds what the script had to make, and a run of the store that makes
nothing is a run of the pool without backend calls.  Proved:

* **`runScript_refines`** — a run of a script is a run of the store;
* **`runScript_of_stocked`** — a script the store runs without growth asks the backend for nothing;
* **`warm_up_guarantees_capture`** — after one run of a balanced script, every later round asks the
  backend for nothing and succeeds.
-/

namespace InfiniRT.Pool

open InfiniRT.Library

/-! ### Scripts -/

/-- One command of a script. -/
inductive Command
  /-- `allocate_exact(size)` if `isExact` holds, else `allocate(size)`. -/
  | allocate (size : ℕ) (isExact : Bool)
  /-- `deallocate` of what allocation number `k` of the script returned, counted from zero. -/
  | deallocate (k : ℕ)
  deriving DecidableEq, Repr

/-- How the environment meets one command: the thread it runs on, and the answers to it. -/
structure Turn where
  thread : ThreadId
  ans : AllocAnswer
  pushBack : Bool

/-- The device can be selected and the host finds memory.  Nothing is said about the backend. -/
structure Turn.Granting (turn : Turn) : Prop where
  guard : turn.ans.guard = true
  freeze : turn.ans.freeze.granted
  pushBack : turn.pushBack = true

/-- The event a command is, once the allocations so far returned `results`. -/
def Command.event (turn : Turn) (results : List Ptr) : Command → Event
  | .allocate size false => .allocate turn.thread size turn.ans
  | .allocate size true => .allocateExact turn.thread size turn.ans
  | .deallocate k => .deallocate turn.thread (results.getD k nullptr) turn.pushBack

/-- The address a call returned, if it returns one. -/
def Value.pointers : Value → List Ptr
  | .pointer p => [p]
  | _ => []

/-- Run a script with no other client acting, until it ends or a command throws.  The result is what
its allocations returned. -/
def World.runScript (w : World) (results : List Ptr) (turns : ℕ → Turn) :
    List Command → World × Except Exn (List Ptr)
  | [] => (w, .ok results)
  | c :: rest =>
    match w.perform (c.event (turns 0) results) with
    | (w', .error e) => (w', .error e)
    | (w', .ok v) => w'.runScript (results ++ v.pointers) (fun n => turns (n + 1)) rest

/-- The environment keeps its contract in every step of the script. -/
def World.CanRunScript (w : World) (results : List Ptr) (turns : ℕ → Turn) :
    List Command → Prop
  | [] => True
  | c :: rest =>
    w.Enabled (c.event (turns 0) results) ∧
      match w.perform (c.event (turns 0) results) with
      | (_, .error _) => True
      | (w', .ok v) => w'.CanRunScript (results ++ v.pointers) (fun n => turns (n + 1)) rest

/-- Run a script once for each round, until a command throws. -/
def World.runRounds (w : World) (script : List Command) :
    List (ℕ → Turn) → World × Except Exn Unit
  | [] => (w, .ok ())
  | turns :: rounds =>
    match w.runScript [] turns script with
    | (w', .error e) => (w', .error e)
    | (w', .ok _) => w'.runRounds script rounds

/-- Each `deallocate` of the script is of an earlier allocation of it that was not deallocated yet,
and at its end every allocation was deallocated.  `live` are the numbers of the allocations not
deallocated, and `next` is the number of the next one. -/
def DeallocatesAll (live : List ℕ) (next : ℕ) : List Command → Prop
  | [] => live = []
  | .allocate _ _ :: rest => DeallocatesAll (next :: live) (next + 1) rest
  | .deallocate k :: rest => k ∈ live ∧ DeallocatesAll (live.erase k) next rest

instance decidableDeallocatesAll (live : List ℕ) (next : ℕ) :
    (script : List Command) → Decidable (DeallocatesAll live next script)
  | [] => inferInstanceAs (Decidable (live = []))
  | .allocate _ _ :: rest => decidableDeallocatesAll (next :: live) (next + 1) rest
  | .deallocate k :: rest =>
    have := decidableDeallocatesAll (live.erase k) next rest
    inferInstanceAs (Decidable (_ ∧ _))

instance World.decidableCanRunScript (w : World) (results : List Ptr) (turns : ℕ → Turn) :
    (script : List Command) → Decidable (w.CanRunScript results turns script)
  | [] => .isTrue trivial
  | c :: rest =>
    have : Decidable (match w.perform (c.event (turns 0) results) with
        | (_, .error _) => True
        | (w', .ok v) =>
          w'.CanRunScript (results ++ v.pointers) (fun n => turns (n + 1)) rest) :=
      match w.perform (c.event (turns 0) results) with
      | (_, .error _) => .isTrue trivial
      | (w', .ok v) =>
        World.decidableCanRunScript w' (results ++ v.pointers) (fun n => turns (n + 1)) rest
    inferInstanceAs (Decidable (_ ∧ _))

/-! ### Scripts on the store -/

/-- A command as a command of the store. -/
def Command.plan : Command → Store.Command ℕ (Kind × ℕ)
  | .allocate size isExact => .take (request size isExact)
  | .deallocate k => .give k

/-- `allocate_impl_` does not reject the command. -/
def Command.Servable : Command → Prop
  | .allocate size isExact => (size = 0 → isExact = false) ∧ Addressable size
  | .deallocate _ => True

variable {w w' : World} {s s' : State} {held : List BlockId} {script : List Command}
  {results : List Ptr} {handles : List (Handle ℕ)} {live : List ℕ} {turns : ℕ → Turn}

theorem balanced_plan {next : ℕ} (h : DeallocatesAll live next script) :
    Store.Balanced live next (script.map Command.plan) := by
  induction script generalizing live next with
  | nil => exact h
  | cons c rest ih =>
    cases c with
    | allocate size isExact => exact ih h
    | deallocate k => exact ⟨h.1, ih h.2⟩

/-- **The script holds what it allocated.** The allocations in `live` have their blocks, one owner
each, and no two share a block. -/
structure Holding (s : State) (results : List Ptr) (handles : List (Handle ℕ)) (live : List ℕ) :
    Prop where
  length : handles.length = results.length
  range : ∀ k ∈ live, k < results.length
  nodup : live.Nodup
  lends : ∀ k ∈ live, s.Lends (results.getD k nullptr) (handles.getD k .nothing)
  distinct : ∀ k ∈ live, ∀ j ∈ live, results.getD k nullptr = results.getD j nullptr →
    k = j ∨ results.getD k nullptr = nullptr

theorem Holding.start (s : State) : Holding s [] [] [] :=
  ⟨rfl, by simp, List.nodup_nil, by simp, by simp⟩

/-- An allocation adds what it returned. -/
theorem Holding.served {req : Request ℕ (Kind × ℕ)} {p : Ptr}
    (h : Holding s results handles live) (hs : Serves s req p s') :
    Holding s' (results ++ [p]) (handles ++ [(s.store.serve req).2.1])
      (results.length :: live) := by
  have hold : ∀ k ∈ live, (results ++ [p]).getD k nullptr = results.getD k nullptr ∧
      (handles ++ [(s.store.serve req).2.1]).getD k .nothing = handles.getD k .nothing :=
    fun k hk => ⟨List.getD_append _ _ _ _ (h.range k hk),
      List.getD_append _ _ _ _ (h.length ▸ h.range k hk)⟩
  have hnew : (results ++ [p]).getD results.length nullptr = p := by simp
  have hapart : ∀ k ∈ live, results.getD k nullptr = p → results.getD k nullptr = nullptr := by
    intro k hk hp
    by_contra hne
    obtain ⟨b, hb⟩ := (h.lends k hk).lent hne
    exact hs.distinct _ b hb hp
  refine ⟨by simp [h.length], ?_, ?_, ?_, ?_⟩
  · intro k hk
    rw [List.length_append, List.length_singleton]
    rcases List.mem_cons.mp hk with rfl | hk
    · exact Nat.lt_succ_self _
    · exact Nat.lt_succ_of_lt (h.range k hk)
  · exact List.nodup_cons.mpr ⟨fun hmem => Nat.lt_irrefl _ (h.range _ hmem), h.nodup⟩
  · intro k hk
    rcases List.mem_cons.mp hk with rfl | hk
    · rw [hnew, ← h.length]
      simpa using hs.lends
    · rw [(hold k hk).1, (hold k hk).2]
      exact hs.keeps _ _ (h.lends k hk)
  · intro k hk j hj heq
    rcases List.mem_cons.mp hk with rfl | hk <;> rcases List.mem_cons.mp hj with rfl | hj
    · exact .inl rfl
    · rw [hnew, (hold j hj).1] at heq
      rw [hnew, heq]
      exact .inr (hapart j hj heq.symm)
    · rw [hnew, (hold k hk).1] at heq
      rw [(hold k hk).1]
      exact .inr (hapart k hk heq)
    · rw [(hold k hk).1, (hold j hj).1] at heq
      rw [(hold k hk).1]
      exact h.distinct k hk j hj heq

/-- A deallocation takes what it returned out. -/
theorem Holding.returned {k : ℕ} (h : Holding s results handles live) (hk : k ∈ live)
    (hs : Returns s (results.getD k nullptr) (handles.getD k .nothing) s') :
    Holding s' results handles (live.erase k) := by
  refine ⟨h.length, fun j hj => h.range j (List.mem_of_mem_erase hj), h.nodup.erase k, ?_, ?_⟩
  · intro j hj
    obtain ⟨hne, hmem⟩ := h.nodup.mem_erase_iff.mp hj
    refine hs.keeps _ _ (fun heq => ?_) (h.lends j hmem)
    exact (h.distinct j hmem k hk heq).resolve_left hne
  · intro i hi j hj
    exact h.distinct i (List.mem_of_mem_erase hi) j (List.mem_of_mem_erase hj)

/-! ### One command -/

/-- What the commands of the store do to its handles. -/
theorem run_cons_allocate (σ : Store ℕ (Kind × ℕ)) (handles : List (Handle ℕ)) (size : ℕ)
    (isExact : Bool) (rest : List Command) :
    σ.run handles ((Command.allocate size isExact :: rest).map Command.plan) =
      let served := σ.serve (request size isExact)
      let last := served.1.run (handles ++ [served.2.1]) (rest.map Command.plan)
      (last.1, served.2.2 + last.2) := rfl

theorem run_cons_deallocate (σ : Store ℕ (Kind × ℕ)) (handles : List (Handle ℕ)) (k : ℕ)
    (rest : List Command) :
    σ.run handles ((Command.deallocate k :: rest).map Command.plan) =
      (σ.giveBack (handles.getD k .nothing)).run handles (rest.map Command.plan) := rfl

/-- A successful allocation is a request to the store. -/
theorem Effect.serves {e : Event} {t : ThreadId} {size : ℕ} {isExact : Bool} {ans : AllocAnswer}
    {v : Value} (he : Effect w e (.ok v) w') (hreq : e.Requests t size isExact ans)
    (hsound : Sound held w.state) (hans : w.Answers ans) :
    ∃ p, v = .pointer p ∧ Serves w.state (request size isExact) p w'.state ∧
      (Command.allocate size isExact).Servable := by
  generalize hout : (Except.ok v : Outcome) = o at he
  cases he with
  | null t ans =>
    cases hreq
    cases hout
    exact ⟨nullptr, rfl, .null _, fun _ => rfl, Nat.zero_le _⟩
  | allocated hreq' hs hsize hbig =>
    cases hout
    cases hreq <;> cases hreq' <;>
      exact ⟨_, rfl, hs.serves hsound hans.fresh hsize, fun hzero => absurd hzero hsize, hbig⟩
  | failed | rejected => cases hout
  | _ => cases hreq

theorem Command.requests_event (turn : Turn) (results : List Ptr) (size : ℕ) (isExact : Bool) :
    ((Command.allocate size isExact).event turn results).Requests turn.thread size isExact
      turn.ans := by
  cases isExact <;> constructor

/-- A successful deallocation is a return to the store. -/
theorem Effect.returns {t : ThreadId} {p : Ptr} {pushBack : Bool} {v : Value} {hd : Handle ℕ}
    (he : w.perform (.deallocate t p pushBack) = (w', .ok v)) (hsound : Sound held w.state)
    (hl : w.state.Lends p hd) : v = .none ∧ Returns w.state p hd w'.state := by
  rcases deallocate_of_lends hsound hl pushBack with ⟨s', hrun, -, hs, -⟩ | ⟨-, e, hrun⟩
  · rw [World.perform, call_eq hrun] at he
    cases he
    exact ⟨rfl, hs⟩
  · rw [World.perform, call_eq hrun] at he
    cases he

/-! ### The first run -/

/-- **A run of a script is a run of the store.** -/
theorem runScript_refines (h : Invariant w) (hhold : Holding w.state results handles live)
    (hall : DeallocatesAll live results.length script)
    (hcan : w.CanRunScript results turns script) {results' : List Ptr}
    (hrun : w.runScript results turns script = (w', .ok results')) :
    Invariant w' ∧ w'.closed = w.closed ∧
      w'.state.store = (w.state.store.run handles (script.map Command.plan)).1 ∧
      ∀ c ∈ script, c.Servable := by
  induction script generalizing w results handles live turns with
  | nil =>
    cases hrun
    exact ⟨h, rfl, rfl, by simp⟩
  | cons c rest ih =>
    obtain ⟨henabled, hcan⟩ := hcan
    rw [World.runScript] at hrun
    rcases hperform : w.perform (c.event (turns 0) results) with ⟨w₁, e | v⟩
    · rw [hperform] at hrun
      cases hrun
    rw [hperform] at hrun hcan
    dsimp only at hrun hcan
    have hstep : Step w (c.event (turns 0) results, .ok v) w₁ := ⟨henabled, hperform⟩
    have h₁ := h.step hstep
    have hsound := h.sound (h.closed_of_enabled henabled)
    have hclosed : w₁.closed = w.closed := by
      have hworld : (w.perform (c.event (turns 0) results)).1 = w₁ := congrArg Prod.fst hperform
      rw [← hworld]
      rcases c with ⟨size, _ | _⟩ | k <;> rfl
    cases c with
    | allocate size isExact =>
      have hans : w.Answers (turns 0).ans := by
        cases isExact <;> exact henabled.2
      obtain ⟨p, rfl, hs, hservable⟩ := (h.effect_of_step hstep).serves
        (Command.requests_event _ _ _ _) hsound hans
      have hall' : DeallocatesAll (results.length :: live) (results ++ [p]).length rest := by
        rw [List.length_append]
        exact hall
      obtain ⟨h', hclosed', hstore, hrest⟩ := ih h₁ (hhold.served hs) hall' hcan hrun
      refine ⟨h', hclosed'.trans hclosed, ?_, ?_⟩
      · rw [hstore, hs.store]
        rfl
      · exact List.forall_mem_cons.mpr ⟨hservable, hrest⟩
    | deallocate k =>
      obtain ⟨rfl, hs⟩ := Effect.returns hperform hsound (hhold.lends k hall.1)
      rw [show results ++ Value.pointers .none = results from List.append_nil _] at hcan hrun
      obtain ⟨h', hclosed', hstore, hrest⟩ := ih h₁ (hhold.returned hall.1 hs) hall.2 hcan hrun
      refine ⟨h', hclosed'.trans hclosed, ?_, ?_⟩
      · rw [hstore, hs.store]
        rfl
      · exact List.forall_mem_cons.mpr ⟨trivial, hrest⟩

/-! ### The runs after it -/

/-- An allocation which the store serves without growth. -/
theorem perform_allocate_of_stocked (h : Sound held w.state) (turn : Turn)
    (results : List Ptr) {size : ℕ} {isExact : Bool}
    (hgrown : (w.state.store.serve (request size isExact)).2.2 = 0)
    (hservable : (Command.allocate size isExact).Servable) :
    (∃ p s', w.perform ((Command.allocate size isExact).event turn results) =
        ({ w with state := s' }, .ok (.pointer p)) ∧ Sound held s' ∧
      Serves w.state (request size isExact) p s' ∧ s'.calls = w.state.calls) ∨
    (¬ turn.Granting ∧ ∃ e,
      w.perform ((Command.allocate size isExact).event turn results) = (w, .error e)) := by
  have hperform : w.perform ((Command.allocate size isExact).event turn results) =
      w.call (do
        deviceGuard turn.ans.guard
        allocateImpl turn.thread turn.ans size isExact) .pointer := by
    cases isExact <;> rfl
  have hguarded := guarded_run turn.ans.guard (allocateImpl turn.thread turn.ans size isExact)
    w.state
  rw [hperform]
  cases hguard : turn.ans.guard with
  | false =>
    rw [hguard, if_neg Bool.false_ne_true] at hguarded
    refine .inr ⟨fun hgrant => ?_, _, call_eq hguarded⟩
    rw [hgrant.guard] at hguard
    cases hguard
  | true =>
    rw [hguard, if_pos rfl] at hguarded
    rcases allocateImpl_of_stocked h turn.thread turn.ans hgrown hservable.1 hservable.2 with
      ⟨p, s', hok, hsound, hs, hcalls⟩ | ⟨hdenied, e, herr⟩
    · exact .inl ⟨p, s', call_eq (hguarded.trans hok), hsound, hs, hcalls⟩
    · exact .inr ⟨fun hgrant => hdenied hgrant.freeze, e, call_eq (hguarded.trans herr)⟩

/-- **A script the store runs without growth makes no backend call**, whatever the environment
answers, and it completes if the device can be selected and the host finds memory. -/
theorem runScript_of_stocked (turns : ℕ → Turn) (h : Sound held w.state)
    (hhold : Holding w.state results handles live)
    (hall : DeallocatesAll live results.length script) (hservable : ∀ c ∈ script, c.Servable)
    (hgrown : (w.state.store.run handles (script.map Command.plan)).2 = 0) :
    (∃ s' results', w.runScript results turns script = ({ w with state := s' }, .ok results') ∧
      s'.calls = w.state.calls ∧ Sound held s' ∧
      s'.store = (w.state.store.run handles (script.map Command.plan)).1) ∨
    (∃ s' e, w.runScript results turns script = ({ w with state := s' }, .error e) ∧
      s'.calls = w.state.calls ∧ ∃ n, ¬ (turns n).Granting) := by
  induction script generalizing w results handles live turns with
  | nil => exact .inl ⟨w.state, results, rfl, rfl, h, rfl⟩
  | cons c rest ih =>
    have hrest : ∀ c ∈ rest, c.Servable := fun c hc => hservable c (List.mem_cons_of_mem _ hc)
    cases c with
    | allocate size isExact =>
      rw [run_cons_allocate] at hgrown
      obtain ⟨hfirst, hlast⟩ := Reserve.add_eq_zero hgrown
      rcases perform_allocate_of_stocked h (turns 0) results hfirst
        (hservable _ List.mem_cons_self) with
        ⟨p, s₁, hperform, hsound, hs, hcalls⟩ | ⟨hdenied, e, hperform⟩
      · have hall' : DeallocatesAll (results.length :: live) (results ++ [p]).length rest := by
          rw [List.length_append]
          exact hall
        have hrun : w.runScript results turns (.allocate size isExact :: rest) =
            ({ w with state := s₁ } : World).runScript (results ++ [p])
              (fun n => turns (n + 1)) rest := by
          rw [World.runScript, hperform]
          rfl
        rw [← hs.store] at hlast
        rcases ih (w := { w with state := s₁ }) (fun n => turns (n + 1)) hsound
          (hhold.served hs) hall' hrest hlast with
          ⟨s', results', hok, hcalls', hsound', hstore⟩ | ⟨s', e, herr, hcalls', n, hn⟩
        · refine .inl ⟨s', results', hrun.trans hok, hcalls'.trans hcalls, hsound', ?_⟩
          rw [hstore, hs.store]
          rfl
        · exact .inr ⟨s', e, hrun.trans herr, hcalls'.trans hcalls, n + 1, hn⟩
      · refine .inr ⟨w.state, e, ?_, rfl, 0, hdenied⟩
        rw [World.runScript, hperform]
    | deallocate k =>
      rw [run_cons_deallocate] at hgrown
      rcases deallocate_of_lends h (hhold.lends k hall.1) (turns 0).pushBack with
        ⟨s₁, hok, hsound, hs, hcalls⟩ | ⟨hdenied, e, herr⟩
      · have hrun : w.runScript results turns (.deallocate k :: rest) =
            ({ w with state := s₁ } : World).runScript results (fun n => turns (n + 1)) rest := by
          rw [World.runScript, Command.event, World.perform, call_eq hok]
          show World.runScript _ (results ++ []) _ _ = _
          rw [List.append_nil]
        rw [← hs.store] at hgrown
        rcases ih (w := { w with state := s₁ }) (fun n => turns (n + 1)) hsound
          (hhold.returned hall.1 hs) hall.2 hrest hgrown with
          ⟨s', results', hok', hcalls', hsound', hstore⟩ | ⟨s', e, herr, hcalls', n, hn⟩
        · refine .inl ⟨s', results', hrun.trans hok', hcalls'.trans hcalls, hsound', ?_⟩
          rw [hstore, hs.store]
          rfl
        · exact .inr ⟨s', e, hrun.trans herr, hcalls'.trans hcalls, n + 1, hn⟩
      · refine .inr ⟨w.state, e, ?_, rfl, 0, fun hgrant => ?_⟩
        · rw [World.runScript, Command.event, World.perform, call_eq herr]
          rfl
        · rw [hgrant.pushBack] at hdenied
          cases hdenied

/-- Further rounds of a script leave the store as it is. -/
theorem runRounds_of_warm (h : Sound held w.state) (hall : DeallocatesAll [] 0 script)
    (hservable : ∀ c ∈ script, c.Servable)
    (hwarm : w.state.store.run [] (script.map Command.plan) = (w.state.store, 0))
    (rounds : List (ℕ → Turn)) :
    (w.runRounds script rounds).1.state.calls = w.state.calls ∧
      ((∀ turns ∈ rounds, ∀ n, (turns n).Granting) → (w.runRounds script rounds).2 = .ok ()) := by
  induction rounds generalizing w with
  | nil => exact ⟨rfl, fun _ => rfl⟩
  | cons turns rounds ih =>
    rcases runScript_of_stocked turns h (.start w.state) hall hservable
      (by rw [hwarm]) with
      ⟨s', results, hok, hcalls, hsound, hstore⟩ | ⟨s', e, herr, hcalls, n, hn⟩
    · rw [hwarm] at hstore
      have hrun : w.runRounds script (turns :: rounds) =
          ({ w with state := s' } : World).runRounds script rounds := by
        rw [World.runRounds, hok]
      have hwarm' : s'.store.run [] (script.map Command.plan) = (s'.store, 0) := by
        rw [hstore, hwarm]
      obtain ⟨hcalls', hcomplete⟩ := ih (w := { w with state := s' }) hsound hwarm'
      rw [hrun]
      exact ⟨hcalls'.trans hcalls, fun hgrant =>
        hcomplete fun turns hturns => hgrant turns (List.mem_cons_of_mem _ hturns)⟩
    · have hrun : w.runRounds script (turns :: rounds) = ({ w with state := s' }, .error e) := by
        rw [World.runRounds, herr]
      rw [hrun]
      exact ⟨hcalls, fun hgrant => absurd (hgrant turns List.mem_cons_self n) hn⟩

theorem runRounds_nil (w : World) (rounds : List (ℕ → Turn)) :
    w.runRounds [] rounds = (w, .ok ()) := by
  induction rounds with
  | nil => rfl
  | cons turns rounds ih => exact ih

/-- **Warm-up guarantees capture.**  Take any reachable pool and a script that gives back everything
it allocates.  If the script completes once, then no later round of it makes a backend call,
whatever the environment answers, and every round completes if the device can be selected and the
host finds memory, also while growth is refused. -/
theorem warm_up_guarantees_capture {trace : List (Event × Outcome)} {first : ℕ → Turn}
    (hrun : PoolRun trace w) (hall : DeallocatesAll [] 0 script)
    (hcan : w.CanRunScript [] first script)
    (hfirst : w.runScript [] first script = (w', .ok results)) (rounds : List (ℕ → Turn)) :
    (w'.runRounds script rounds).1.state.calls = w'.state.calls ∧
      ((∀ turns ∈ rounds, ∀ n, (turns n).Granting) →
        (w'.runRounds script rounds).2 = .ok ()) := by
  have h := invariant_of_run hrun
  cases script with
  | nil =>
    rw [runRounds_nil]
    exact ⟨rfl, fun _ => rfl⟩
  | cons c rest =>
    obtain ⟨h', hclosed, hstore, hservable⟩ := runScript_refines h (.start w.state) hall hcan hfirst
    have hsound := h'.sound (hclosed.trans (h.closed_of_enabled hcan.1))
    have hagain := w.state.store.run_again (balanced_plan hall)
    rw [← hstore] at hagain
    exact runRounds_of_warm hsound hall hservable hagain rounds

/-- A script with blocks of a class, large blocks and exact blocks. -/
def mixedScript : List Command :=
  [.allocate 100 false, .allocate 300000000 false, .deallocate 0, .allocate 1000 true,
    .allocate 200 false, .deallocate 1, .allocate 290000000 false, .deallocate 4, .deallocate 3,
    .deallocate 2]

/-- A round in which the pool may grow. -/
def growingRound : ℕ → Turn := fun n => ⟨0, .granting n (4096 + n), true⟩

/-- A round during a capture, in which no allocation of the backend would succeed. -/
def capturedRound : ℕ → Turn := fun _ =>
  { thread := 1
    ans :=
      { AllocAnswer.granting 0 0 with
        makeShared := none
        backend := { captureQuery := kSuccess, capturing := true, status := 2, out := nullptr } }
    pushBack := true }

/-- The pool after a first round. -/
def warmWorld : World := ((World.initial (some 7) true).runScript [] growingRound mixedScript).1

theorem warm_up_guarantees_capture_of_mixedScript :
    (warmWorld.runRounds mixedScript [capturedRound, capturedRound]).1.state.calls =
        warmWorld.state.calls ∧
      (warmWorld.runRounds mixedScript [capturedRound, capturedRound]).2 = .ok () := by
  have hrun : PoolRun [] (World.initial (some 7) true) := ⟨some 7, true, .nil⟩
  have hcan : (World.initial (some 7) true).CanRunScript [] growingRound mixedScript := by decide
  have hfirst : (World.initial (some 7) true).runScript [] growingRound mixedScript =
      (warmWorld, .ok [4096, 4097, 4099, 4096, 4097]) := rfl
  obtain ⟨hcalls, hcomplete⟩ := warm_up_guarantees_capture hrun (by decide) hcan hfirst
    [capturedRound, capturedRound]
  refine ⟨hcalls, hcomplete fun turns hturns n => ?_⟩
  obtain rfl : turns = capturedRound := by simpa using hturns
  exact ⟨rfl, ⟨rfl, rfl⟩, rfl⟩

end InfiniRT.Pool
