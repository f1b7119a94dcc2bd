import TrustLink.Effects.Exec

/-!
# Effects — interleaved execution

Any number of programs run against one machine. A run is a list of moves: start a program,
or let one thread make its next call. Each call is atomic; between two calls of a thread any
number of calls of the others may happen. A thread that is never moved again is a process
that stopped there.

A thread remembers the calls it has made and the answers it got (`Thread.past`), so what an
execution *has seen* is a function of the pool and needs no ghost state. A `Monitor` reads
that history into a small state of its own, says which calls are allowed in it, and is
checked against each program once, by `wp`; `run_invariant` then carries a global invariant
through every interleaving from facts about single calls.
-/

namespace Effects

/-- A call that was made, with its outcome. -/
structure Event (S : Sig) where
  call : S.Call
  resp : Except S.Err (S.Resp call)

/-- A running program: what was started, the calls made so far (newest first), and what is
left to do. The call at the head of `rest` is in flight. -/
structure Thread (S : Sig) (L : Type) where
  label : L
  past : List (Event S)
  rest : Prog S Unit

/-- What a thread has settled with, if it has. -/
def Thread.outcome {S : Sig} {L : Type} (t : Thread S L) : Option (Except S.Err Unit) :=
  match t.rest with
  | .done r => some r
  | .call _ _ => none

/-- The call a thread waits for, unless it has settled. -/
def Thread.inFlight {S : Sig} {L : Type} (t : Thread S L) : Option S.Call :=
  match t.rest with
  | .done _ => none
  | .call c _ => some c

theorem Thread.inFlight_of_rest {S : Sig} {L : Type} {t : Thread S L} {c : S.Call}
    {k : Except S.Err (S.Resp c) → Prog S Unit} (h : t.rest = .call c k) : t.inFlight = some c := by
  unfold inFlight
  rw [h]

structure Pool {S : Sig} (M : Machine S) (L : Type) where
  state : M.State
  threads : List (Thread S L)

/-- Start the program `l`, or let thread `i` complete its call under the choice `ch`. -/
inductive Move {S : Sig} (M : Machine S) (L : Type) where
  | spawn (l : L)
  | step (i : Nat) (ch : M.Choice)

namespace Pool

variable {S : Sig} {M : Machine S} {L σ : Type}

/-- Thread `i`, which is `t`, completes its call `c` and goes on with `k`. -/
def advance (P : Pool M L) (i : Nat) (t : Thread S L) (c : S.Call)
    (k : Except S.Err (S.Resp c) → Prog S Unit) (ch : M.Choice) : Pool M L :=
  let a := M.handle ch c P.state
  { state := a.2
    threads := P.threads.set i { label := t.label, past := ⟨c, a.1⟩ :: t.past, rest := k a.1 } }

/-- One move. Moving a thread that has settled, or does not exist, changes nothing. -/
def next (prog : L → Prog S Unit) (P : Pool M L) : Move M L → Pool M L
  | .spawn l => { P with threads := P.threads ++ [⟨l, [], prog l⟩] }
  | .step i ch =>
    match P.threads[i]? with
    | none => P
    | some t =>
      match t.rest with
      | .done _ => P
      | .call c k => P.advance i t c k ch

def run (prog : L → Prog S Unit) (P : Pool M L) (ms : List (Move M L)) : Pool M L :=
  ms.foldl (next prog) P

/-- Every move of the run meets `K` in the pool it is made in. -/
def Admissible (prog : L → Prog S Unit) (K : Pool M L → Move M L → Prop) :
    Pool M L → List (Move M L) → Prop
  | _, [] => True
  | P, m :: ms => K P m ∧ Admissible prog K (next prog P m) ms

instance decidableAdmissible {prog : L → Prog S Unit} {K : Pool M L → Move M L → Prop}
    [∀ P m, Decidable (K P m)] :
    (P : Pool M L) → (ms : List (Move M L)) → Decidable (Admissible prog K P ms)
  | _, [] => isTrue trivial
  | P, m :: ms =>
    have : Decidable (Admissible prog K (next prog P m) ms) := decidableAdmissible _ ms
    inferInstanceAs (Decidable (K P m ∧ Admissible prog K (next prog P m) ms))

/-- Every execution but the one that moves has settled: a run of such moves takes the programs one
after the other. -/
def InTurn (P : Pool M L) : Move M L → Prop
  | .spawn _ => True
  | .step i _ => ∀ x ∈ P.threads.zipIdx, x.2 ≠ i → x.1.outcome.isSome = true

instance (P : Pool M L) (m : Move M L) : Decidable (P.InTurn m) :=
  match m with
  | .spawn _ => isTrue trivial
  | .step i _ => inferInstanceAs (Decidable (∀ x ∈ P.threads.zipIdx, x.2 ≠ i → _))

/-- What an observer of the moves has seen at the end of a run, oldest first. -/
def observe {γ : Type} (prog : L → Prog S Unit) (obs : Pool M L → Move M L → List γ) :
    Pool M L → List (Move M L) → List γ
  | _, [] => []
  | P, m :: ms => obs P m ++ observe prog obs (next prog P m) ms

variable {prog : L → Prog S Unit} {K : Pool M L → Move M L → Prop} {P : Pool M L}

theorem run_append (ms ms' : List (Move M L)) :
    run prog P (ms ++ ms') = run prog (run prog P ms) ms' :=
  List.foldl_append

theorem admissible_append {ms ms' : List (Move M L)} :
    Admissible prog K P (ms ++ ms') ↔
      Admissible prog K P ms ∧ Admissible prog K (run prog P ms) ms' := by
  induction ms generalizing P with
  | nil => simp [Admissible, run]
  | cons m ms ih =>
    simp only [List.cons_append, Admissible, ih, and_assoc]
    rfl

/-- A weaker condition admits more runs. -/
theorem Admissible.mono {K' : Pool M L → Move M L → Prop} (hK : ∀ P m, K P m → K' P m)
    {ms : List (Move M L)} (h : Admissible prog K P ms) : Admissible prog K' P ms := by
  induction ms generalizing P with
  | nil => trivial
  | cons m ms ih => exact ⟨hK P m h.1, ih h.2⟩

/-- A condition that always holds excludes no run. -/
theorem admissible_of_forall (hK : ∀ P m, K P m) (ms : List (Move M L)) :
    Admissible prog K P ms := by
  induction ms generalizing P with
  | nil => trivial
  | cons m ms ih => exact ⟨hK P m, ih⟩

/-- Admissibility, move by move. -/
theorem admissible_of_split {ms : List (Move M L)}
    (h : ∀ a m b, ms = a ++ m :: b → K (run prog P a) m) : Admissible prog K P ms := by
  induction ms generalizing P with
  | nil => trivial
  | cons m ms ih =>
    refine ⟨h [] m ms rfl, ih ?_⟩
    intro a m' b hsplit
    exact h (m :: a) m' b (by rw [hsplit, List.cons_append])

/-- What holds before a run and not after it ends in one of its moves. -/
theorem run_ends {p : Pool M L → Prop} {ms : List (Move M L)} (hbefore : p P)
    (hafter : ¬ p (run prog P ms)) :
    ∃ a m b, ms = a ++ m :: b ∧ p (run prog P a) ∧ ¬ p (next prog (run prog P a) m) := by
  induction ms generalizing P with
  | nil => exact absurd hbefore hafter
  | cons m ms ih =>
    by_cases hnext : p (next prog P m)
    · obtain ⟨a, m', b, hsplit, hp, hnot⟩ := ih hnext hafter
      exact ⟨m :: a, m', b, by rw [hsplit, List.cons_append], hp, hnot⟩
    · exact ⟨[], m, ms, rfl, hbefore, hnext⟩

/-- What a move can do, said once: nothing, start a program, or complete one call. -/
theorem next_cases (prog : L → Prog S Unit) (P : Pool M L) (m : Move M L) :
    next prog P m = P ∨
    (∃ l, m = .spawn l ∧ next prog P m = { P with threads := P.threads ++ [⟨l, [], prog l⟩] }) ∨
    (∃ i ch t c k, m = .step i ch ∧ P.threads[i]? = some t ∧ t.rest = .call c k ∧
      next prog P m = P.advance i t c k ch) := by
  cases m with
  | spawn l => exact .inr (.inl ⟨l, rfl, rfl⟩)
  | step i ch =>
    simp only [next]
    split
    · exact .inl rfl
    · next t ht =>
      split
      · exact .inl rfl
      · next c k hrest => exact .inr (.inr ⟨i, ch, t, c, k, rfl, ht, hrest, rfl⟩)

section threads

variable {i : Nat} {t t' : Thread S L} {c : S.Call} {k : Except S.Err (S.Resp c) → Prog S Unit}
  {ch : M.Choice}

/-- A thread that waits for a call completes it. -/
theorem next_step (prog : L → Prog S Unit) (ch : M.Choice) (ht : P.threads[i]? = some t)
    (hr : t.rest = .call c k) : next prog P (.step i ch) = P.advance i t c k ch := by
  simp only [next, ht, hr]

/-- The thread that was started last completes a call. -/
theorem next_last {s s' : M.State} {threads : List (Thread S L)} {l : L} {past : List (Event S)}
    {r : Except S.Err (S.Resp c)} (h : M.handle ch c s = (r, s')) :
    next prog ⟨s, threads ++ [⟨l, past, .call c k⟩]⟩ (.step threads.length ch)
      = ⟨s', threads ++ [⟨l, ⟨c, r⟩ :: past, k r⟩]⟩ := by
  simp only [next, List.getElem?_concat_length, advance, h]
  rw [List.set_append_right _ _ (Nat.le_refl _), Nat.sub_self]
  rfl

/-- The threads after a completed call: the mover has changed, the others are as they were. -/
theorem advance_threads_cases {j : Nat} (h : (P.advance i t c k ch).threads[j]? = some t') :
    (j = i ∧ t' = ⟨t.label, ⟨c, (M.handle ch c P.state).1⟩ :: t.past, k (M.handle ch c P.state).1⟩) ∨
      (j ≠ i ∧ P.threads[j]? = some t') := by
  simp only [advance, List.getElem?_set] at h
  split at h
  · next hij =>
    split at h
    · exact .inl ⟨hij.symm, (Option.some.inj h).symm⟩
    · cases h
  · next hij => exact .inr ⟨fun hji => hij hji.symm, h⟩

/-- The same for a thread of which the place does not matter. -/
theorem mem_advance (h : t' ∈ (P.advance i t c k ch).threads) :
    t' = ⟨t.label, ⟨c, (M.handle ch c P.state).1⟩ :: t.past, k (M.handle ch c P.state).1⟩ ∨
      t' ∈ P.threads := by
  obtain ⟨j, hj⟩ := List.mem_iff_getElem?.mp h
  exact (advance_threads_cases hj).imp And.right fun h => List.mem_of_getElem? h.2

/-- The mover is still there after its call. -/
theorem mover_mem (ht : P.threads[i]? = some t) :
    (⟨t.label, ⟨c, (M.handle ch c P.state).1⟩ :: t.past, k (M.handle ch c P.state).1⟩ : Thread S L)
      ∈ (P.advance i t c k ch).threads := by
  refine List.mem_of_getElem? (i := i) ?_
  rw [advance, List.getElem?_set_self (List.getElem?_eq_some_iff.mp ht).1]

/-- A completed call is remembered, so it changes the pool. -/
theorem advance_ne (ht : P.threads[i]? = some t) :
    P.advance i t c k ch ≠ P := by
  intro hsame
  have hi : (P.advance i t c k ch).threads[i]? = some t := by
    rw [hsame]
    exact ht
  rw [advance, List.getElem?_set_self (List.getElem?_eq_some_iff.mp ht).1] at hi
  have hpast := congrArg Thread.past (Option.some.inj hi)
  exact List.cons_ne_self _ _ hpast

theorem next_ne (ht : P.threads[i]? = some t)
    (hr : t.rest = .call c k) : next prog P (.step i ch) ≠ P := by
  rw [next_step prog ch ht hr]
  exact advance_ne ht

/-- A thread that has not moved is still there. -/
theorem other_mem {j : Nat} (hne : j ≠ i) (ht' : P.threads[j]? = some t') :
    t' ∈ (P.advance i t c k ch).threads := by
  refine List.mem_of_getElem? (i := j) ?_
  rw [advance, List.getElem?_set_ne hne.symm]
  exact ht'

/-- What is so of some thread is so of some thread after a call, if it is so of the mover still. -/
theorem exists_advance {p : Thread S L → Prop} (ht : P.threads[i]? = some t)
    (hmover : p t → p ⟨t.label, ⟨c, (M.handle ch c P.state).1⟩ :: t.past,
      k (M.handle ch c P.state).1⟩) (h : ∃ t' ∈ P.threads, p t') :
    ∃ t' ∈ (P.advance i t c k ch).threads, p t' := by
  obtain ⟨t', ht', hp⟩ := h
  obtain ⟨j, hj⟩ := List.mem_iff_getElem?.mp ht'
  by_cases hji : j = i
  · subst hji
    obtain rfl : t = t' := Option.some.inj (ht.symm.trans hj)
    exact ⟨_, mover_mem ht, hmover hp⟩
  · exact ⟨t', other_mem hji hj, hp⟩

/-- An event in a history after a completed call: an old one, or that call. -/
theorem mem_past_advance {e : Event S}
    (ht : P.threads[i]? = some t) (ht' : t' ∈ (P.advance i t c k ch).threads) (he : e ∈ t'.past) :
    (∃ t ∈ P.threads, e ∈ t.past) ∨ e = ⟨c, (M.handle ch c P.state).1⟩ := by
  rcases mem_advance ht' with rfl | hold
  · rcases List.mem_cons.mp he with hnew | hpast
    · exact .inr hnew
    · exact .inl ⟨t, List.mem_of_getElem? ht, hpast⟩
  · exact .inl ⟨t', hold, he⟩

/-- The threads after a program is started: an old one, or the new one. -/
theorem spawn_threads_cases {l : L} {j : Nat}
    (h : (P.threads ++ [⟨l, [], prog l⟩])[j]? = some t') :
    P.threads[j]? = some t' ∨ (j = P.threads.length ∧ t' = ⟨l, [], prog l⟩) := by
  rcases Nat.lt_or_ge j P.threads.length with hlt | hge
  · rw [List.getElem?_append_left hlt] at h
    exact .inl h
  · rw [List.getElem?_append_right hge] at h
    rcases Nat.eq_or_lt_of_le hge with heq | hgt
    · subst heq
      simp only [Nat.sub_self, List.getElem?_cons_zero, Option.some.injEq] at h
      exact .inr ⟨rfl, h.symm⟩
    · rw [List.getElem?_eq_none (by simp only [List.length_singleton]; omega)] at h
      cases h

theorem mem_spawn {l : L} {p : Prog S Unit} (h : t' ∈ P.threads ++ [⟨l, [], p⟩]) :
    t' ∈ P.threads ∨ t' = ⟨l, [], p⟩ :=
  (List.mem_append.mp h).imp_right List.mem_singleton.mp

/-- No thread goes away. -/
theorem length_threads_run (ms : List (Move M L)) :
    P.threads.length ≤ (run prog P ms).threads.length := by
  induction ms generalizing P with
  | nil => exact Nat.le_refl _
  | cons m ms ih =>
    have hnext : P.threads.length ≤ (next prog P m).threads.length := by
      rcases next_cases prog P m with h | ⟨l, _, h⟩ | ⟨i, ch, t, c, k, _, _, _, h⟩
      · have hlen : (next prog P m).threads.length = P.threads.length := by rw [h]
        omega
      · have hlen : (next prog P m).threads.length = P.threads.length + 1 := by
          rw [h, List.length_append, List.length_singleton]
        omega
      · have hlen : (next prog P m).threads.length = P.threads.length := by
          rw [h, advance, List.length_set]
        omega
    exact Nat.le_trans hnext ih

/-- How many threads meet `p` after a move: what the mover adds, and what it takes away. -/
theorem countP_advance (p : Thread S L → Bool)
    (ht : P.threads[i]? = some t) :
    (P.advance i t c k ch).threads.countP p + (if p t then 1 else 0) =
      P.threads.countP p + (if p ⟨t.label, ⟨c, (M.handle ch c P.state).1⟩ :: t.past,
        k (M.handle ch c P.state).1⟩ then 1 else 0) := by
  obtain ⟨hlt, hget⟩ := List.getElem?_eq_some_iff.mp ht
  show (P.threads.set i _).countP p + _ = _
  rw [List.countP_set hlt, hget]
  -- the mover is counted before the move if it meets `p`
  have hcounted : (if p t then 1 else 0) ≤ P.threads.countP p := by
    split
    · next hp => exact List.countP_pos_iff.mpr ⟨t, List.mem_of_getElem? ht, hp⟩
    · exact Nat.zero_le _
  omega

end threads

/-- Programs that make certain calls only: what those calls keep of the machine's state, every
interleaved run of the programs keeps. -/
theorem run_only {prog : L → Prog S Unit} {K : S.Call → Prop} {I : M.State → Prop}
    (hprog : ∀ l, (prog l).Only K) (hcall : ∀ ch c s, K c → I s → I (M.handle ch c s).2)
    (ms : List (Move M L)) (s : M.State) (hs : I s) : I (run prog ⟨s, []⟩ ms).state := by
  -- along the run, what is left of every thread still makes these calls only
  have hrun : ∀ (ms : List (Move M L)) (P : Pool M L), (∀ t ∈ P.threads, t.rest.Only K) →
      I P.state → I (run prog P ms).state := by
    intro ms
    induction ms with
    | nil => exact fun P _ hI => hI
    | cons mv ms ih =>
      intro P honly hI
      show I (run prog (next prog P mv) ms).state
      rcases next_cases prog P mv with h | ⟨l, _, h⟩ | ⟨i, ch, t, c, k, _, ht, hr, h⟩
      · rw [h]
        exact ih P honly hI
      · rw [h]
        apply ih
        · intro t ht
          rcases mem_spawn ht with hold | rfl
          · exact honly t hold
          · exact hprog l
        · exact hI
      · have honly' : (Prog.call c k).Only K := by
          rw [← hr]
          exact honly t (List.mem_of_getElem? ht)
        rw [h]
        apply ih
        · intro t' ht'
          rcases mem_advance ht' with rfl | hold
          · exact honly'.2 _
          · exact honly t' hold
        · exact hcall ch c P.state honly'.1 hI
  exact hrun ms ⟨s, []⟩ nofun hs

end Pool

/-! ## Monitors

A monitor is a protocol whose state is a function of the calls made so far. `ok` is what the
program promises about its calls, `ans` is what the machine promises about its answers. -/

structure Monitor (S : Sig) (L σ : Type) where
  init : L → σ
  next : σ → (c : S.Call) → Except S.Err (S.Resp c) → σ
  ok : σ → S.Call → Prop
  ans : σ → (c : S.Call) → Except S.Err (S.Resp c) → Prop

namespace Monitor

variable {S : Sig} {M : Machine S} {L σ : Type}

def protocol (m : Monitor S L σ) : Protocol S σ where
  ok := m.ok
  step s c r s' := m.ans s c r ∧ s' = m.next s c r

/-- The monitor's reading of a thread's history. -/
def view (m : Monitor S L σ) (t : Thread S L) : σ :=
  t.past.foldr (fun e s => m.next s e.call e.resp) (m.init t.label)

@[simp] theorem view_start (m : Monitor S L σ) (l : L) (p : Prog S Unit) :
    m.view ⟨l, [], p⟩ = m.init l := rfl

@[simp] theorem view_cons (m : Monitor S L σ) (l : L) (e : Event S) (past : List (Event S))
    (p q : Prog S Unit) :
    m.view ⟨l, e :: past, p⟩ = m.next (m.view ⟨l, past, q⟩) e.call e.resp := rfl

/-- One call under a monitor. -/
theorem wp_perform {m : Monitor S L σ} {c : S.Call} {Q : Except S.Err (S.Resp c) → σ → Prop}
    {v : σ} (hok : m.ok v c) (h : ∀ r, m.ans v c r → Q r (m.next v c r)) :
    (Prog.perform c).wp m.protocol Q v := by
  refine ⟨hok, ?_⟩
  rintro r v' ⟨hans, rfl⟩
  exact h r hans

/-- The program keeps to the monitor from the state it is started in. -/
def Accepts (m : Monitor S L σ) (prog : L → Prog S Unit) (l : L) : Prop :=
  (prog l).wp m.protocol (fun _ _ => True) (m.init l)

/-- Every thread will keep to the monitor from where it stands. -/
def Obeyed (m : Monitor S L σ) (P : Pool M L) : Prop :=
  ∀ t ∈ P.threads, t.rest.wp m.protocol (fun _ _ => True) (m.view t)

theorem obeyed_nil (m : Monitor S L σ) (s : M.State) : m.Obeyed (⟨s, []⟩ : Pool M L) :=
  nofun

/-- The call in flight is allowed. -/
theorem Obeyed.inFlight {m : Monitor S L σ} {P : Pool M L} (h : m.Obeyed P) {t : Thread S L}
    {c : S.Call} (ht : t ∈ P.threads) (hc : t.inFlight = some c) : m.ok (m.view t) c := by
  have hwp := h t ht
  unfold Thread.inFlight at hc
  split at hc
  · cases hc
  · next c' k hr =>
    cases hc
    rw [hr] at hwp
    exact hwp.1

/-- Every thread will keep to the monitor from where it stands, and settle as `Q` says. -/
def Settles (m : Monitor S L σ) (Q : L → Except S.Err Unit → σ → Prop) (P : Pool M L) : Prop :=
  ∀ t ∈ P.threads, t.rest.wp m.protocol (Q t.label) (m.view t)

variable {Q : L → Except S.Err Unit → σ → Prop}

theorem settles_nil (m : Monitor S L σ) (s : M.State) : m.Settles Q (⟨s, []⟩ : Pool M L) :=
  nofun

/-- A thread that has settled has settled so. -/
theorem Settles.outcome {m : Monitor S L σ} {P : Pool M L} (h : m.Settles Q P) {t : Thread S L}
    (ht : t ∈ P.threads) {r : Except S.Err Unit} (hr : t.outcome = some r) :
    Q t.label r (m.view t) := by
  have hwp := h t ht
  unfold Thread.outcome at hr
  split at hr
  · next r' hrest =>
    rw [hrest, Option.some.inj hr] at hwp
    exact hwp
  · cases hr

/-- One admissible move: every thread still keeps to the monitor. The mover does because its
call was allowed and answered as the monitor expects. -/
theorem settles_next {prog : L → Prog S Unit} (m : Monitor S L σ) {P : Pool M L} {mv : Move M L}
    (hsettles : m.Settles Q P)
    (haccepts : ∀ l, mv = .spawn l → (prog l).wp m.protocol (Q l) (m.init l))
    (hans : ∀ i ch t c k, mv = .step i ch → P.threads[i]? = some t → t.rest = .call c k →
      m.ok (m.view t) c → m.ans (m.view t) c (M.handle ch c P.state).1) :
    m.Settles Q (Pool.next prog P mv) := by
  rcases Pool.next_cases prog P mv with h | ⟨l, hmv, h⟩ | ⟨i, ch, t, c, k, hmv, ht, hr, h⟩
  · rw [h]; exact hsettles
  · rw [h]
    intro t ht
    rcases Pool.mem_spawn ht with hold | rfl
    · exact hsettles t hold
    · exact haccepts l hmv
  · rw [h]
    have hwp := hsettles t (List.mem_of_getElem? ht)
    rw [hr] at hwp
    have hanswered := hans i ch t c k hmv ht hr hwp.1
    intro t' ht'
    rcases Pool.mem_advance ht' with rfl | hold
    · exact hwp.2 _ _ ⟨hanswered, rfl⟩
    · exact hsettles t' hold

/-- The invariant rule for interleaved runs, with an observer. The programs keep to the monitor
and settle as `Q` says (a fact about each program alone); a completed call that the monitor allows
is answered as the monitor expects and keeps the invariant between what was observed and the pool.
Then both hold after every admissible run. -/
theorem run_settles {γ : Type} {prog : L → Prog S Unit} {K : Pool M L → Move M L → Prop}
    (m : Monitor S L σ) (obs : Pool M L → Move M L → List γ) {I : List γ → Pool M L → Prop}
    (hidle : ∀ P mv seen, Pool.next prog P mv = P → I seen P → I (seen ++ obs P mv) P)
    (hspawn : ∀ P l seen, K P (.spawn l) → I seen P → (prog l).wp m.protocol (Q l) (m.init l) ∧
      I (seen ++ obs P (.spawn l)) { P with threads := P.threads ++ [⟨l, [], prog l⟩] })
    (hstep : ∀ P i ch t c k seen, K P (.step i ch) → I seen P → m.Settles Q P →
      P.threads[i]? = some t → t.rest = .call c k → m.ok (m.view t) c →
      m.ans (m.view t) c (M.handle ch c P.state).1 ∧
        I (seen ++ obs P (.step i ch)) (P.advance i t c k ch)) :
    ∀ (ms : List (Move M L)) (P : Pool M L) (seen : List γ), Pool.Admissible prog K P ms →
      m.Settles Q P → I seen P → m.Settles Q (Pool.run prog P ms) ∧
        I (seen ++ Pool.observe prog obs P ms) (Pool.run prog P ms) := by
  intro ms
  induction ms with
  | nil =>
    intro P seen _ hsettles hI
    rw [Pool.observe, List.append_nil]
    exact ⟨hsettles, hI⟩
  | cons mv ms ih =>
    intro P seen hadm hsettles hI
    obtain ⟨hK, hrest⟩ := hadm
    rw [Pool.observe, ← List.append_assoc]
    refine ih (Pool.next prog P mv) (seen ++ obs P mv) hrest ?_ ?_
    · refine m.settles_next hsettles ?_ ?_
      · rintro l rfl
        exact (hspawn P l seen hK hI).1
      · rintro i ch t c k rfl ht hr hok
        exact (hstep P i ch t c k seen hK hI hsettles ht hr hok).1
    -- a move does nothing, starts a thread or advances one
    · rcases Pool.next_cases prog P mv with h | ⟨l, rfl, h⟩ | ⟨i, ch, t, c, k, rfl, ht, hr, h⟩
      · rw [h]; exact hidle P mv seen h hI
      · rw [h]; exact (hspawn P l seen hK hI).2
      · rw [h]
        have hwp := hsettles t (List.mem_of_getElem? ht)
        rw [hr] at hwp
        exact (hstep P i ch t c k seen hK hI hsettles ht hr hwp.1).2

/-- The rule where nothing is asked of how a program settles. -/
theorem run_observed {γ : Type} {prog : L → Prog S Unit} {K : Pool M L → Move M L → Prop}
    (m : Monitor S L σ) (obs : Pool M L → Move M L → List γ) {I : List γ → Pool M L → Prop}
    (hidle : ∀ P mv seen, Pool.next prog P mv = P → I seen P → I (seen ++ obs P mv) P)
    (hspawn : ∀ P l seen, K P (.spawn l) → I seen P → m.Accepts prog l ∧
      I (seen ++ obs P (.spawn l)) { P with threads := P.threads ++ [⟨l, [], prog l⟩] })
    (hstep : ∀ P i ch t c k seen, K P (.step i ch) → I seen P → m.Obeyed P →
      P.threads[i]? = some t → t.rest = .call c k → m.ok (m.view t) c →
      m.ans (m.view t) c (M.handle ch c P.state).1 ∧
        I (seen ++ obs P (.step i ch)) (P.advance i t c k ch)) :
    ∀ (ms : List (Move M L)) (P : Pool M L) (seen : List γ), Pool.Admissible prog K P ms →
      m.Obeyed P → I seen P →
      m.Obeyed (Pool.run prog P ms) ∧
        I (seen ++ Pool.observe prog obs P ms) (Pool.run prog P ms) :=
  m.run_settles (Q := fun _ _ _ => True) obs hidle hspawn hstep

/-- The invariant rule without an observer. -/
theorem run_invariant {prog : L → Prog S Unit} {K : Pool M L → Move M L → Prop}
    (m : Monitor S L σ) {I : Pool M L → Prop}
    (hspawn : ∀ P l, K P (.spawn l) → I P →
      m.Accepts prog l ∧ I { P with threads := P.threads ++ [⟨l, [], prog l⟩] })
    (hstep : ∀ P i ch t c k, K P (.step i ch) → I P → m.Obeyed P → P.threads[i]? = some t →
      t.rest = .call c k → m.ok (m.view t) c →
      m.ans (m.view t) c (M.handle ch c P.state).1 ∧ I (P.advance i t c k ch))
    (ms : List (Move M L)) (P : Pool M L) (hadm : Pool.Admissible prog K P ms)
    (hobeyed : m.Obeyed P) (hI : I P) :
    m.Obeyed (Pool.run prog P ms) ∧ I (Pool.run prog P ms) :=
  m.run_observed (γ := Unit) (fun _ _ => []) (I := fun _ => I) (fun _ _ _ _ h => h)
    (fun P l _ => hspawn P l) (fun P i ch t c k _ => hstep P i ch t c k) ms P [] hadm hobeyed hI

end Monitor

end Effects
