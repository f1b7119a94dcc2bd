import TrustLink.Effects.Pool

/-!
# Effects — what a thread has done and seen

The monitor that forgets nothing: its state is the history of the thread, so the calls it allows are
those that the thread's own earlier calls and their answers are grounds for. Grounds are not lost
when more happens, so a program is checked by following it to where the grounds are there; from then
on it is enough to know which calls it makes (`wp_of_only`).
-/

namespace Effects

variable {S : Sig} {L α β : Type}

/-- Calls are judged by the history they are made in. -/
def Protocol.history (ok : List (Event S) → S.Call → Prop) : Protocol S (List (Event S)) where
  ok := ok
  step past c r past' := past' = ⟨c, r⟩ :: past

/-- Grounds for a call are not lost when more happens. -/
def Lasting (ok : List (Event S) → S.Call → Prop) : Prop :=
  ∀ past past' c, past ⊆ past' → ok past c → ok past' c

section prog

variable {ok : List (Event S) → S.Call → Prop} {past : List (Event S)}

/-- A program that only makes calls there are grounds for already. -/
theorem wp_of_only (hlasting : Lasting ok) {p : Prog S α} (hp : p.Only (ok past)) :
    p.wp (.history ok) (fun _ _ => True) past := by
  refine wp_mono (hp.wp_invariant (I := fun past' => past ⊆ past') ?_ (List.Subset.refl _))
    fun _ _ _ => trivial
  intro c past' hc hsub
  refine ⟨hlasting _ _ _ hsub hc, ?_⟩
  rintro r past'' rfl
  exact List.Subset.trans hsub (List.subset_cons_self _ _)

/-- Whatever it is answered, it makes no other calls than those there can be grounds for. -/
theorem only_of_history {K : S.Call → Prop} (hK : ∀ past c, ok past c → K c) {p : Prog S α}
    {Q : Except S.Err α → List (Event S) → Prop} (h : p.wp (.history ok) Q past) : p.Only K := by
  induction p generalizing past with
  | done r => trivial
  | call c k ih => exact ⟨hK past c h.1, fun r => ih r (h.2 r _ rfl)⟩

/-- Nothing is forgotten. -/
theorem wp_history_grows {p : Prog S α} {Q : Except S.Err α → List (Event S) → Prop}
    (h : p.wp (.history ok) Q past) :
    p.wp (.history ok) (fun r past' => past ⊆ past' ∧ Q r past') past := by
  induction p generalizing past with
  | done r => exact ⟨List.Subset.refl _, h⟩
  | call c k ih =>
    refine ⟨h.1, ?_⟩
    rintro r past' rfl
    refine wp_mono (ih r (h.2 r _ rfl)) fun r' past'' hpast => ⟨?_, hpast.2⟩
    exact List.Subset.trans (List.subset_cons_self _ _) hpast.1

/-- One call there are grounds for. -/
theorem wp_history_perform {c : S.Call} {Q : Except S.Err (S.Resp c) → List (Event S) → Prop}
    (hok : ok past c) (h : ∀ r, Q r (⟨c, r⟩ :: past)) : (Prog.perform c).wp (.history ok) Q past := by
  refine ⟨hok, ?_⟩
  rintro r past' rfl
  exact h r

end prog

namespace Monitor

/-- The same for programs of many labels. -/
def history (ok : L → List (Event S) → S.Call → Prop) : Monitor S L (L × List (Event S)) where
  init l := (l, [])
  next s c r := (s.1, ⟨c, r⟩ :: s.2)
  ok s c := ok s.1 s.2 c
  ans _ _ _ := True

variable {ok : L → List (Event S) → S.Call → Prop}

theorem view_history (t : Thread S L) : (history ok).view t = (t.label, t.past) := by
  obtain ⟨l, past, rest⟩ := t
  induction past with
  | nil => rfl
  | cons e past ih =>
    rw [view_cons (q := rest), ih]
    rfl

theorem history_wp {l : L} {past : List (Event S)} {p : Prog S α}
    (h : p.wp (.history (ok l)) (fun _ _ => True) past) :
    p.wp (history ok).protocol (fun _ _ => True) (l, past) := by
  induction p generalizing past with
  | done r => trivial
  | call c k ih =>
    refine ⟨h.1, ?_⟩
    rintro r s' ⟨-, rfl⟩
    exact ih r (h.2 r _ rfl)

end Monitor

/-- Every call of the history was made on grounds that stand earlier in it. -/
def Justified (ok : List (Event S) → S.Call → Prop) : List (Event S) → Prop
  | [] => True
  | e :: past => ok past e.call ∧ Justified ok past

theorem Justified.of_split {ok : List (Event S) → S.Call → Prop} {later earlier : List (Event S)}
    {e : Event S} (h : Justified ok (later ++ e :: earlier)) : ok earlier e.call := by
  induction later with
  | nil => exact h.1
  | cons _ later ih => exact ih h.2

/-- Programs that keep to their grounds keep to them in every interleaved run. -/
theorem Pool.run_justified {M : Machine S} {ok : L → List (Event S) → S.Call → Prop}
    {prog : L → Prog S Unit}
    (hprog : ∀ l, (prog l).wp (.history (ok l)) (fun _ _ => True) [])
    (ms : List (Move M L)) (s : M.State) :
    ∀ t ∈ (run prog ⟨s, []⟩ ms).threads, Justified (ok t.label) t.past := by
  refine ((Monitor.history ok).run_invariant (K := fun _ _ => True)
    (I := fun P => ∀ t ∈ P.threads, Justified (ok t.label) t.past) ?_ ?_ ms ⟨s, []⟩
    (admissible_of_forall (fun _ _ => trivial) ms) (Monitor.obeyed_nil _ s)
    (fun _ h => nomatch h)).2
  · intro P l _ hI
    refine ⟨Monitor.history_wp (hprog l), ?_⟩
    intro t ht
    rcases Pool.mem_spawn ht with hold | rfl
    · exact hI t hold
    · trivial
  · intro P i ch t c k _ hI _ ht _ hok
    refine ⟨trivial, ?_⟩
    intro t' ht'
    rcases mem_advance ht' with rfl | hold
    · rw [Monitor.view_history] at hok
      exact ⟨hok, hI t (List.mem_of_getElem? ht)⟩
    · exact hI t' hold

end Effects
