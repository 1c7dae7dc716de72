import Mathlib.Data.List.Induction
import Xsmp.Proofs.Session.Register
import Xsmp.Proofs.Session.Trace

/-!
# No two clients under one identifier

A client that brings an identifier is turned away if the identifier is taken. A new
identifier is not looked up at all, so it can be one that another client holds: a client
may have brought it before it was made, or the source may have come round while the
clock showed the same time again. That is the only way to two clients under one
identifier, and it takes one of the two.
-/

namespace Xsmp

namespace ClientIds

/-- The sequence number can be read off the end of an identifier. -/
theorem sequence_of_mint_eq {ids other : ClientIds} {now later : Timestamp}
    (h : (ids.mint now).1 = (other.mint later).1) : ids.sequence = other.sequence := by
  have htext : ids.text now = other.text later := String.ofList_inj.mp h
  have hlength : ∀ n : Fin 10000, (Text.decimal 4 n).length = 4 := by
    intro n
    have hdigits : (Nat.toDigits 10 n).length ≤ 4 :=
      (Nat.length_toDigits_le_iff (by decide) (by decide)).mpr n.isLt
    exact Text.length_decimal hdigits
  have hends : Text.decimal 4 ids.sequence = Text.decimal 4 other.sequence := by
    refine List.append_inj_right' htext ?_
    rw [hlength, hlength]
  have hvalue := congrArg (Nat.ofDigitChars 10 · 0) hends
  simp only [Text.ofDigitChars_decimal] at hvalue
  exact Fin.ext hvalue

/-- Each of the identifiers is one that the source makes at some time, and `next` is the
source after the last of them. -/
def Issues : ClientIds → List String → ClientIds → Prop
  | ids, [], next => next = ids
  | ids, id :: rest, next => (∃ now, id = (ids.mint now).1) ∧ Issues ids.advance rest next

theorem Issues.append {ids between next : ClientIds} {made more : List String}
    (h : Issues ids made between) (hmore : Issues between more next) :
    Issues ids (made ++ more) next := by
  induction made generalizing ids with
  | nil =>
      rw [Issues] at h
      exact h ▸ hmore
  | cons id made ih => exact ⟨h.1, ih h.2⟩

theorem Makes.issues {w : Surroundings} {ids next : ClientIds}
    {made : List (Option Nat × String)} (h : Makes w ids made next) :
    Issues ids (made.map Prod.snd) next := by
  induction made generalizing ids with
  | nil => exact h
  | cons first made ih => exact ⟨⟨w.clock first.1, h.1⟩, ih h.2⟩

/-- The sequence number of an identifier says how many were made before it. -/
theorem Issues.sequence {ids next : ClientIds} {made : List String} (h : Issues ids made next)
    {id : String} (hmem : id ∈ made) :
    ∃ (before : Nat) (source : ClientIds) (now : Timestamp), before < made.length
      ∧ id = (source.mint now).1 ∧ source.sequence.val = (ids.sequence.val + before) % 10000 := by
  induction made generalizing ids with
  | nil => exact absurd hmem (by simp)
  | cons first made ih =>
      obtain ⟨⟨now, hfirst⟩, hrest⟩ := h
      rcases List.mem_cons.mp hmem with rfl | hmem
      · refine ⟨0, ids, now, Nat.succ_pos _, hfirst, ?_⟩
        rw [Nat.add_zero, Nat.mod_eq_of_lt ids.sequence.isLt]
      · obtain ⟨before, source, later, hlt, hid, hsequence⟩ := ih hrest hmem
        refine ⟨before + 1, source, later, Nat.succ_lt_succ hlt, hid, ?_⟩
        have hnext : ids.advance.sequence.val = (ids.sequence.val + 1) % 10000 := rfl
        rw [hsequence, hnext]
        omega

/-- **Until it comes round, a source makes no identifier twice, whatever the clock shows.** -/
theorem Issues.nodup {ids next : ClientIds} {made : List String} (h : Issues ids made next)
    (hround : made.length ≤ 10000) : made.Nodup := by
  induction made generalizing ids with
  | nil => exact List.nodup_nil
  | cons first made ih =>
      obtain ⟨⟨now, hfirst⟩, hrest⟩ := h
      rw [List.length_cons] at hround
      refine List.nodup_cons.mpr ⟨fun hmem => ?_, ih hrest (by omega)⟩
      obtain ⟨before, source, later, hlt, hid, hsequence⟩ := hrest.sequence hmem
      have hsame : ids.sequence = source.sequence := sequence_of_mint_eq (hfirst.symm.trans hid)
      have hnext : ids.advance.sequence.val = (ids.sequence.val + 1) % 10000 := rfl
      rw [← hsame, hnext] at hsequence
      have hbound : ids.sequence.val < 10000 := ids.sequence.isLt
      omega

end ClientIds

namespace Session

variable {w : Surroundings} {session start : Session} {operation : Operation}
  {key : ClientKey} {id : String} {previousId : Option String}

/-! ## Clients and their identifiers -/

/-- No two clients are registered under one identifier. -/
def Distinct (session : Session) : Prop :=
  ∀ first second id, session.clients.get? first = some id →
    session.clients.get? second = some id → first = second

/-- A client gets an identifier made for it that another client holds. -/
def MintsHeld (w : Surroundings) (operation : Operation) (session : Session) : Prop :=
  ∃ key previousId holder, operation = .register key previousId ∧ Admits session previousId
    ∧ broughtId previousId = none ∧ holder ≠ key
    ∧ session.clients.get? holder = some (session.ids.mint (w.clock none)).1

/-- A client comes under an identifier that nobody else holds. -/
theorem Distinct.insert {clients : KeyMap String} (h : Distinct session)
    (hclients : clients = session.clients.insert key id)
    (hfree : ∀ holder, holder ≠ key → session.clients.get? holder ≠ some id) :
    ∀ first second id, clients.get? first = some id → clients.get? second = some id →
      first = second := by
  intro first second other hfirst hsecond
  rw [hclients] at hfirst hsecond
  by_cases hf : first = key <;> by_cases hs : second = key
  · rw [hf, hs]
  · rw [hf, KeyMap.get?_insert_self] at hfirst
    rw [KeyMap.get?_insert_of_ne hs, ← hfirst] at hsecond
    exact absurd hsecond (hfree second hs)
  · rw [hs, KeyMap.get?_insert_self] at hsecond
    rw [KeyMap.get?_insert_of_ne hf, ← hsecond] at hfirst
    exact absurd hfirst (hfree first hf)
  · rw [KeyMap.get?_insert_of_ne hf] at hfirst
    rw [KeyMap.get?_insert_of_ne hs] at hsecond
    exact h first second other hfirst hsecond

/-- **Identifiers stay apart exactly if no client gets one that another client holds.** -/
theorem distinct_step (h : Distinct session) (step : Step) :
    Distinct (take step session).session ↔ ¬MintsHeld step.1 step.2 session := by
  obtain ⟨w, operation⟩ := step
  show Distinct (perform w operation session).session ↔ ¬MintsHeld w operation session
  cases registerStep w session operation with
  | keeps refused _ hkeeps =>
      have hdistinct : Distinct (perform w operation session).session := by
        rw [Distinct, hkeeps.clients]
        exact h
      refine iff_of_true hdistinct fun hheld => ?_
      obtain ⟨key, previousId, _, heq, hadmits, _⟩ := hheld
      exact refused key previousId heq hadmits
  | resumes key previousId id heq admitted brought rest effects startup clients =>
      -- a client that brings an identifier is let in only if nobody holds it
      refine iff_of_true (h.insert clients fun holder _ => admitted.2 id brought holder) ?_
      rintro ⟨other, previousId', _, heq', _, hnone, _⟩
      obtain ⟨_, rfl⟩ := Operation.register.inj (heq.symm.trans heq')
      exact absurd (brought.symm.trans hnone) (by simp)
  | mints key previousId id heq admitted brought made effects clients =>
      -- nothing looks whether somebody holds an identifier that is made
      constructor
      · rintro hdistinct ⟨other, previousId', holder, heq', _, _, hne, hholder⟩
        obtain ⟨rfl, _⟩ := Operation.register.inj (heq.symm.trans heq')
        refine hne (hdistinct holder key id ?_ ?_)
        · rw [clients, KeyMap.get?_insert_of_ne hne, made]
          exact hholder
        · rw [clients]
          exact KeyMap.get?_insert_self
      · intro hheld
        refine h.insert clients fun holder hne hholder => hheld ?_
        exact ⟨key, previousId, holder, heq, admitted, brought, hne, made ▸ hholder⟩
  | strikes key registered heq hkeeps =>
      have hclients : (perform w operation session).session.clients = session.clients.erase key :=
        hkeeps.clients
      refine iff_of_true ?_ ?_
      · intro first second id hfirst hsecond
        rw [hclients] at hfirst hsecond
        have hf : first ≠ key := by
          rintro rfl
          exact absurd (hfirst.symm.trans KeyMap.get?_erase_self) (by simp)
        have hs : second ≠ key := by
          rintro rfl
          exact absurd (hsecond.symm.trans KeyMap.get?_erase_self) (by simp)
        rw [KeyMap.get?_erase_of_ne hf] at hfirst
        rw [KeyMap.get?_erase_of_ne hs] at hsecond
        exact h first second id hfirst hsecond
      · rintro ⟨other, previousId, _, heq', _⟩
        exact absurd (heq.symm.trans heq') (by simp)

theorem distinct_of_clients_empty (h : session.clients = .empty) : Distinct session := by
  intro first second id hfirst
  rw [h] at hfirst
  exact absurd hfirst (by simp [KeyMap.empty, KeyMap.get?])

/-- **Identifiers stay apart throughout a run exactly if no client ever gets one that another
client holds.** -/
theorem distinct_run (h : Distinct session) (steps : List Step) :
    (∀ before after, steps = before ++ after → Distinct (run session before).session) ↔
      ∀ before step after, steps = before ++ step :: after →
        ¬MintsHeld step.1 step.2 (run session before).session := by
  constructor
  · intro hdistinct before step after hsteps
    refine (distinct_step (hdistinct before (step :: after) hsteps) step).mp ?_
    have hnext := hdistinct (before ++ [step]) after (by simp [hsteps])
    rw [run_snoc_session] at hnext
    exact hnext
  · intro hfresh before
    induction before using List.reverseRecOn with
    | nil => exact fun _ _ => h
    | append_singleton before step ih =>
        intro after hsteps
        have hsplit : steps = before ++ step :: after := by simp [hsteps]
        rw [run_snoc_session]
        exact (distinct_step (ih (step :: after) hsplit) step).mpr (hfresh before step after hsplit)

/-! ## Where identifiers come from -/

/-- The new identifiers that come out with effects. -/
def made (effects : List Effect) : List String := (effects.filterMap Effect.made?).map Prod.snd

@[simp] theorem made_append (effects more : List Effect) :
    made (effects ++ more) = made effects ++ made more := by
  rw [made, List.filterMap_append, List.map_append]
  rfl

/-- A run makes the identifiers of its source, one after the other. -/
theorem issues_run (h : Settled session) (steps : List Step) :
    session.ids.Issues (made (run session steps).effects) (run session steps).session.ids := by
  induction steps generalizing session with
  | nil => rfl
  | cons step steps ih =>
      have hstep : Mints step.1 session.ids (take step session).effects _ :=
        (passed_step h step).ids
      rw [run_cons, Turn.andThen_effects, made_append]
      exact (ClientIds.Makes.issues hstep).append (ih (settled_step h step))

/-- A client held its identifier before the step, or it brought it along, or it was made for
it. -/
theorem held_step (w : Surroundings) (operation : Operation) (session : Session)
    (h : (perform w operation session).session.clients.get? key = some id) :
    session.clients.get? key = some id
      ∨ (∃ previousId, operation = .register key previousId ∧ broughtId previousId = some id)
      ∨ id ∈ made (perform w operation session).effects := by
  cases registerStep w session operation with
  | keeps _ _ hkeeps =>
      rw [hkeeps.clients] at h
      exact .inl h
  | resumes client previousId brought heq _ hbrought _ _ _ clients =>
      rw [clients] at h
      by_cases hkey : key = client
      · rw [hkey, KeyMap.get?_insert_self] at h
        exact .inr (.inl ⟨previousId, hkey ▸ heq, hbrought.trans h⟩)
      · rw [KeyMap.get?_insert_of_ne hkey] at h
        exact .inl h
  | mints client previousId new heq _ _ _ effects clients =>
      rw [clients] at h
      by_cases hkey : key = client
      · rw [hkey, KeyMap.get?_insert_self] at h
        refine .inr (.inr ?_)
        rw [effects, Option.some.inj h]
        exact List.mem_singleton.mpr rfl
      · rw [KeyMap.get?_insert_of_ne hkey] at h
        exact .inl h
  | strikes client _ _ hkeeps =>
      have hclients : (perform w operation session).session.clients =
        session.clients.erase client := hkeeps.clients
      rw [hclients] at h
      by_cases hkey : key = client
      · rw [hkey, KeyMap.get?_erase_self] at h
        exact absurd h (by simp)
      · rw [KeyMap.get?_erase_of_ne hkey] at h
        exact .inl h

/-- Whatever identifier of the run's own a client brings, it was made before. -/
def BringsOnlyMade (session : Session) (steps : List Step) : Prop :=
  ∀ before w key previousId id after, steps = before ++ (w, .register key previousId) :: after →
    broughtId previousId = some id → id ∈ made (run session steps).effects →
      id ∈ made (run session before).effects

/-- A client that holds an identifier of the run's own holds one that was made before. -/
theorem made_of_held {steps : List Step} (hempty : session.clients = .empty)
    (hbrought : BringsOnlyMade session steps) {before after : List Step}
    (hsteps : steps = before ++ after)
    (hheld : (run session before).session.clients.get? key = some id)
    (hmade : id ∈ made (run session steps).effects) : id ∈ made (run session before).effects := by
  induction before using List.reverseRecOn generalizing after with
  | nil =>
      rw [run_nil, hempty] at hheld
      exact absurd hheld (by simp [KeyMap.empty, KeyMap.get?])
  | append_singleton before step ih =>
      have hsplit : steps = before ++ step :: after := by simp [hsteps]
      rw [run_snoc_session] at hheld
      rw [run_snoc_effects, made_append, List.mem_append]
      rcases held_step step.1 step.2 _ hheld with hheld | ⟨previousId, heq, hid⟩ | hnew
      · exact .inl (ih hsplit hheld)
      · obtain ⟨w, operation⟩ := step
        obtain rfl : operation = .register key previousId := heq
        exact .inl (hbrought before w key previousId id after hsplit hid hmade)
      · exact .inr hnew

/-- A client that gets a new identifier gets one that the run makes in that step. -/
theorem mintsHeld_made (h : MintsHeld w operation session) :
    ∃ holder id, session.clients.get? holder = some id
      ∧ id ∈ made (perform w operation session).effects := by
  obtain ⟨key, previousId, holder, rfl, hadmits, hnone, _, hholder⟩ := h
  refine ⟨holder, _, hholder, ?_⟩
  cases registerStep w session (.register key previousId) with
  | keeps refused _ _ => exact absurd hadmits (refused key previousId rfl)
  | resumes _ _ _ heq _ brought _ _ _ _ =>
      obtain ⟨_, rfl⟩ := Operation.register.inj heq
      exact absurd (brought.symm.trans hnone) (by simp)
  | mints _ _ id heq _ _ hid effects _ =>
      rw [effects, hid]
      exact List.mem_singleton.mpr rfl
  | strikes _ _ heq _ => exact absurd heq (by simp)

/-- Where a new identifier is one that a client holds, it has been made before, be it for a
program, or it was brought too early. -/
theorem not_mintsHeld {steps : List Step} (h : Settled session) (hempty : session.clients = .empty)
    (hbrought : BringsOnlyMade session steps)
    (hround : (made (run session steps).effects).length ≤ 10000)
    {before after : List Step} {step : Step} (hsteps : steps = before ++ step :: after) :
    ¬MintsHeld step.1 step.2 (run session before).session := by
  intro hmints
  obtain ⟨holder, id, hheld, hnew⟩ := mintsHeld_made hmints
  have hrun : made (run session steps).effects = made (run session before).effects
      ++ (made (turnAt session before step).effects
        ++ made (run (turnAt session before step).session after).effects) := by
    rw [hsteps, run_append_effects, made_append, run_cons, Turn.andThen_effects, made_append]
  have hmem : id ∈ made (turnAt session before step).effects
      ++ made (run (turnAt session before step).session after).effects :=
    List.mem_append_left _ hnew
  have hearlier : id ∈ made (run session before).effects := by
    refine made_of_held hempty hbrought hsteps hheld ?_
    rw [hrun]
    exact List.mem_append_right _ hmem
  -- within one round the source makes no identifier twice
  have hnodup := (issues_run h steps).nodup hround
  rw [hrun] at hnodup
  exact (List.nodup_append.mp hnodup).2.2 id hearlier id hmem rfl

/-- **When identifiers stay apart.** They do as long as no client gets a new identifier that
another client holds, and no longer. It never happens while nobody brings an identifier
before it is made and the source has not come round, whatever the clock shows. -/
theorem distinct_iff_mints_free (manifests : List Manifest) (ids : ClientIds)
    (name : Option String) (phaseTimeout : Nat) (steps : List Step) :
    ((∀ before after, steps = before ++ after →
        Distinct (run { new manifests ids with name, phaseTimeout } before).session) ↔
      ∀ before step after, steps = before ++ step :: after →
        ¬MintsHeld step.1 step.2
          (run { new manifests ids with name, phaseTimeout } before).session)
    ∧ (BringsOnlyMade { new manifests ids with name, phaseTimeout } steps →
      (made (run { new manifests ids with name, phaseTimeout } steps).effects).length ≤ 10000 →
        ∀ before after, steps = before ++ after →
          Distinct (run { new manifests ids with name, phaseTimeout } before).session) := by
  have hsettled := settled_init manifests ids name phaseTimeout
  have hfresh : Distinct { new manifests ids with name, phaseTimeout } :=
    distinct_of_clients_empty rfl
  have hrun := distinct_run hfresh steps
  refine ⟨hrun, fun hbrought hround => hrun.mpr ?_⟩
  intro before step after hsteps
  exact not_mintsHeld hsettled rfl hbrought hround hsteps

/-- Surroundings in which the clock shows the same time whenever it is read. -/
def standing : Surroundings := { still with clock := fun _ => 1700000000 * nanosPerSecond + 5000 }

/-- A client brings the identifier that is made for the next one. -/
theorem brought_then_made :
    ¬Distinct (run (new [] (.ofSeeds 0xdead 0xbeef 42))
      [(standing, .start),
        (standing, .register 1 (some "10deadbeef170000000000500000000420000")),
        (standing, .register 2 none)]).session := by
  intro h
  have hsame : (1 : ClientKey) = 2 := by
    refine h 1 2 "10deadbeef170000000000500000000420000" ?_ ?_
    · decide +kernel
    · decide +kernel
  exact absurd hsame (by decide)

end Session

end Xsmp
