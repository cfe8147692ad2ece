/-
Registrations without a name in common may come in any order.

# What a registration depends on

Whether a macro is refused, and why, depends on the macro and on which of
its own names are bound already (`refusal?_congr`), and a registration
writes at its own names only. So of registrations that share no name
none can see another one, be it refused or not: each of them has the
outcome that it would have alone (`run_of_independent`).

# What registrations leave

The macros that such registrations bind share no name either, so that a
name is bound to the one of them that has it. Being one of them has
nothing to do with the order (`latest_eq_some_iff_mem`). Bindings are
extensional, and all answers of a registry are read off its bindings, so
nothing that is done later can tell two orders apart
(`run_of_bindings_eq`).
-/
import Mathlib.Data.List.Basic
import TexMath.Proofs.LatestRegistration

namespace TexMath.Registry

variable {ε : Type} {r t : Registry ε} {m : Macro ε} {ms ms' : List (Macro ε)}
  {x : Step ε} {steps steps' : List (Step ε)}

-- ============================================== what a registration depends on

/-- The macro that a step asks to register. -/
def Step.offered? (x : Step ε) : Option (Macro ε) :=
  x.attempt?.map Prod.fst

/-- No string is a name of both macros. -/
def Apart (m m' : Macro ε) : Prop :=
  ∀ name ∈ m.boundNames, name ∉ m'.boundNames

/-- The macros that the two steps offer share no name. -/
def Step.Independent (x y : Step ε) : Prop :=
  ∀ m ∈ x.offered?, ∀ m' ∈ y.offered?, Apart m m'

theorem Apart.symm {m m' : Macro ε} (h : Apart m m') : Apart m' m :=
  fun name hname' hname => h name hname hname'

theorem Step.Independent.symm {x y : Step ε} (h : x.Independent y) : y.Independent x :=
  fun m' hm' m hm => (h m hm m' hm').symm

/-- Of the bindings only those of its own names decide whether a macro is
refused, and why. -/
theorem refusal?_congr {replace : Bool} (h : ∀ name ∈ m.boundNames, r.lookup name = t.lookup name) :
    r.refusal? m replace = t.refusal? m replace := by
  have hname : ∀ d ∈ m.names, r.nameRefusal? replace d = t.nameRefusal? replace d := by
    intro d hd
    unfold nameRefusal? contains
    cases hname : d.name? with
    | none => rfl
    | some name =>
      dsimp only
      rw [h name (List.mem_filterMap.2 ⟨d, hd, hname⟩)]
  unfold refusal?
  rw [← List.head?_filterMap, ← List.head?_filterMap, List.filterMap_congr hname]

theorem exists_attempt_of_offered (h : x.offered? = some m) :
    ∃ replace, x.attempt? = some (m, replace) := by
  obtain ⟨⟨m', replace⟩, hx, rfl⟩ := Option.map_eq_some_iff.1 h
  exact ⟨replace, hx⟩

/-- The outcome of a registration follows from whether it is refused, and
why. -/
theorem register_fst_congr {replace : Bool} (h : r.refusal? m replace = t.refusal? m replace) :
    (r.register m replace).1 = (t.register m replace).1 := by
  cases hwhy : t.refusal? m replace with
  | some why => rw [register_of_refused hwhy, register_of_refused (h.trans hwhy)]
  | none => rw [register_fst_of_accepted hwhy, register_fst_of_accepted (h.trans hwhy)]

/-- A registration has the same outcome in two registries that agree on
its names, and registers the same macro. -/
theorem step_fst_congr (hx : x.offered? = some m)
    (h : ∀ name ∈ m.boundNames, r.lookup name = t.lookup name) :
    (r.step x).1 = (t.step x).1 ∧ r.accepted? x = t.accepted? x := by
  obtain ⟨replace, hattempt⟩ := exists_attempt_of_offered hx
  have hrefusal : r.refusal? m replace = t.refusal? m replace := refusal?_congr h
  constructor
  · rw [step_of_attempt hattempt, step_of_attempt hattempt, register_fst_congr hrefusal]
  · unfold accepted?
    rw [hattempt]
    dsimp only
    rw [hrefusal]

/-- What a step registers is what it has offered. -/
theorem offered?_of_accepted (h : r.accepted? x = some m) : x.offered? = some m := by
  obtain ⟨replace, hx, -⟩ := accepted?_eq_some_iff.1 h
  unfold Step.offered?
  rw [hx]
  rfl

/-- A registration leaves the names of others with what they have. -/
theorem lookup_step (hx : x.offered? = some m) {name : String} (hname : name ∉ m.boundNames) :
    (r.step x).2.lookup name = r.lookup name := by
  rcases r.step_cases x with ⟨-, hsame⟩ | ⟨m', hregistered, -, hbinds⟩
  · rw [hsame]
  · rw [offered?_of_accepted hregistered] at hx
    cases hx
    rw [hbinds, if_neg hname]

/-- A registration is not seen by one that shares no name with it. -/
theorem step_unseen {y : Step ε} (hx : x.offered? ≠ none) (hy : y.offered? ≠ none)
    (h : x.Independent y) :
    ((r.step x).2.step y).1 = (r.step y).1 ∧ (r.step x).2.accepted? y = r.accepted? y := by
  obtain ⟨m, hm⟩ := Option.ne_none_iff_exists'.1 hx
  obtain ⟨m', hm'⟩ := Option.ne_none_iff_exists'.1 hy
  apply step_fst_congr hm'
  intro name hname
  exact lookup_step hm ((h m hm m' hm').symm name hname)

-- =========================================================== several registrations

/-- Registrations that share no name have the outcomes that they would
have alone, and register what they would register alone. -/
theorem run_of_independent (r : Registry ε) (hsteps : ∀ x ∈ steps, x.offered? ≠ none)
    (h : steps.Pairwise Step.Independent) :
    (r.run steps).1 = steps.map (fun x => (r.step x).1)
      ∧ r.registered steps = steps.filterMap r.accepted? := by
  induction steps generalizing r with
  | nil => exact ⟨rfl, rfl⟩
  | cons x steps ih =>
    obtain ⟨hx, hlater⟩ := List.pairwise_cons.1 h
    -- the first one is not seen by any of the others
    have hunseen : ∀ y ∈ steps, ((r.step x).2.step y).1 = (r.step y).1
        ∧ (r.step x).2.accepted? y = r.accepted? y := fun y hy =>
      step_unseen (hsteps x List.mem_cons_self) (hsteps y (List.mem_cons_of_mem x hy)) (hx y hy)
    obtain ⟨hanswers, hregistered⟩ :=
      ih (r.step x).2 (fun y hy => hsteps y (List.mem_cons_of_mem x hy)) hlater
    constructor
    · show (r.step x).1 :: ((r.step x).2.run steps).1 = _
      rw [hanswers, List.map_congr_left fun y hy => (hunseen y hy).1, List.map_cons]
    · rw [registered, hregistered, List.filterMap_congr fun y hy => (hunseen y hy).2,
        List.filterMap_cons]
      cases r.accepted? x <;> rfl

/-- Of macros that share no name the one that has a name is the last one
that has it. -/
theorem latest_eq_some_iff_mem (h : ms.Pairwise Apart) {name : String} :
    latest ms name = some m ↔ m ∈ ms ∧ name ∈ m.boundNames := by
  rw [latest_eq_some_iff]
  constructor
  · rintro ⟨before, after, rfl, hname, -⟩
    exact ⟨List.mem_append_right before List.mem_cons_self, hname⟩
  · rintro ⟨hm, hname⟩
    obtain ⟨before, after, rfl⟩ := List.append_of_mem hm
    obtain ⟨-, hbehind, -⟩ := List.pairwise_append.1 h
    refine ⟨before, after, rfl, hname, fun later hlater => ?_⟩
    exact (List.pairwise_cons.1 hbehind).1 later hlater name hname

theorem latest_perm (h : ms.Pairwise Apart) (hperm : ms'.Perm ms) (name : String) :
    latest ms' name = latest ms name := by
  have h' : ms'.Pairwise Apart := h.perm hperm.symm Apart.symm
  apply Option.ext
  intro m
  rw [latest_eq_some_iff_mem h', latest_eq_some_iff_mem h, hperm.mem_iff]

/-- Registrations that share no name bind the same names in any order. -/
theorem lookup_run_perm (r : Registry ε) (hsteps : ∀ x ∈ steps, x.offered? ≠ none)
    (h : steps.Pairwise Step.Independent) (hperm : steps'.Perm steps) (name : String) :
    (r.run steps').2.lookup name = (r.run steps).2.lookup name := by
  have hsteps' : ∀ x ∈ steps', x.offered? ≠ none := fun x hx => hsteps x (hperm.mem_iff.1 hx)
  have h' : steps'.Pairwise Step.Independent := h.perm hperm.symm Step.Independent.symm
  have hapart : (steps.filterMap r.accepted?).Pairwise Apart := by
    refine h.filterMap _ fun x y hxy m hm m' hm' => ?_
    exact hxy m (offered?_of_accepted hm) m' (offered?_of_accepted hm')
  rw [lookup_run, lookup_run, (run_of_independent r hsteps h).2,
    (run_of_independent r hsteps' h').2, latest_perm hapart (hperm.filterMap _)]

-- ================================================================ equal bindings

/-- A step answers by the bindings of a registry, and leaves bindings that
follow from them. -/
theorem step_of_bindings_eq (h : r.bindings = t.bindings) (x : Step ε) :
    (r.step x).1 = (t.step x).1 ∧ (r.step x).2.bindings = (t.step x).2.bindings := by
  obtain ⟨bindings, log⟩ := r
  obtain ⟨bindings', log'⟩ := t
  cases h
  have registers (m : Macro ε) (replace : Bool) :
      (register ⟨bindings, log⟩ m replace).1 = (register ⟨bindings, log'⟩ m replace).1
        ∧ (register ⟨bindings, log⟩ m replace).2.bindings
          = (register ⟨bindings, log'⟩ m replace).2.bindings := by
    have hrefusal : refusal? ⟨bindings, log⟩ m replace = refusal? ⟨bindings, log'⟩ m replace := rfl
    unfold register
    rw [hrefusal]
    cases refusal? ⟨bindings, log'⟩ m replace with
    | some why => exact ⟨rfl, rfl⟩
    | none => cases m.display <;> exact ⟨rfl, rfl⟩
  cases x with
  | register m replace =>
    obtain ⟨houtcome, hbindings⟩ := registers m replace
    exact ⟨congrArg Answer.registered houtcome, hbindings⟩
  | decorate id handler names arity =>
    obtain ⟨houtcome, hbindings⟩ := registers (.ofHandler id handler names arity) false
    exact ⟨congrArg Answer.registered houtcome, hbindings⟩
  | _ => exact ⟨rfl, rfl⟩

/-- Registries with equal bindings answer alike, whatever is done to
them. -/
theorem run_of_bindings_eq (h : r.bindings = t.bindings) (steps : List (Step ε)) :
    (r.run steps).1 = (t.run steps).1 := by
  induction steps generalizing r t with
  | nil => rfl
  | cons x steps ih =>
    obtain ⟨hanswer, hbindings⟩ := step_of_bindings_eq h x
    show (r.step x).1 :: ((r.step x).2.run steps).1 = (t.step x).1 :: ((t.step x).2.run steps).1
    rw [hanswer, ih hbindings]

-- ================================================================= any order

/-- Registrations that share no name, some of them perhaps refused, may be
made in any order: each of them has the outcome that it would have alone,
and every order leaves the same macro bound to every string, the same
names and size, and the same answers to all that is done later. -/
theorem run_perm (r : Registry ε) (hsteps : ∀ x ∈ steps, x.offered? ≠ none)
    (h : steps.Pairwise Step.Independent) (hperm : steps'.Perm steps) :
    let s := (r.run steps).2
    let s' := (r.run steps').2
    (r.run steps).1 = steps.map (fun x => (r.step x).1)
    ∧ (r.run steps').1 = steps'.map (fun x => (r.step x).1)
    ∧ (∀ name, s'.lookup name = s.lookup name)
    ∧ s'.names = s.names
    ∧ s'.size = s.size
    ∧ ∀ later, (s'.run later).1 = (s.run later).1 := by
  intro s s'
  have hsteps' : ∀ x ∈ steps', x.offered? ≠ none := fun x hx => hsteps x (hperm.mem_iff.1 hx)
  have h' : steps'.Pairwise Step.Independent := h.perm hperm.symm Step.Independent.symm
  have hlookup : ∀ name, s'.lookup name = s.lookup name := lookup_run_perm r hsteps h hperm
  have hbindings : s'.bindings = s.bindings := Std.ExtTreeMap.ext_getElem? hlookup
  refine ⟨(run_of_independent r hsteps h).1, (run_of_independent r hsteps' h').1, hlookup,
    ?_, ?_, run_of_bindings_eq hbindings⟩
  · unfold names
    rw [hbindings]
  · unfold size
    rw [hbindings]

/-- A name given twice, a handler under its own name, and a macro that is
refused for a name bound before, in two orders. -/
theorem run_perm_refused :
    let handler : Macro.Handler Unit := ⟨"frac", fun _ => .ok []⟩
    let r := ((empty : Registry Unit).register ⟨0, handler, [.string "vec"], 0⟩ false).2
    let twice : Step Unit := .register ⟨1, handler, [.string "x", .string "x"], 1⟩ false
    let own : Step Unit := .decorate 2 handler [] 0
    let refused : Step Unit := .register ⟨3, handler, [.string "y", .string "vec"], 0⟩ false
    (∀ x ∈ [twice, own, refused], x.offered? ≠ none)
    ∧ [twice, own, refused].Pairwise Step.Independent
    ∧ [refused, own, twice].Perm [twice, own, refused]
    ∧ (r.run [refused, own, twice]).1.map (·.registered?.isSome) = [false, true, true]
    ∧ (r.run [refused, own, twice]).2.names = (r.run [twice, own, refused]).2.names
    ∧ (r.run [refused, own, twice]).2.lookup "y" = (r.run [twice, own, refused]).2.lookup "y" := by
  intro handler r twice own refused
  have hsteps : ∀ x ∈ [twice, own, refused], x.offered? ≠ none := by
    simp [twice, own, refused, Step.offered?, Step.attempt?]
  have hindependent : [twice, own, refused].Pairwise Step.Independent := by
    simp [twice, own, refused, Step.Independent, Step.offered?, Step.attempt?, Apart,
      Macro.ofHandler, Macro.boundNames, Macro.Datum.name?, handler]
  have hperm : [refused, own, twice].Perm [twice, own, refused] :=
    List.reverse_perm [twice, own, refused]
  obtain ⟨-, hanswers, hlookup, hnames, -⟩ := run_perm r hsteps hindependent hperm
  refine ⟨hsteps, hindependent, hperm, ?_, hnames, hlookup "y"⟩
  rw [hanswers]
  decide +kernel

end TexMath.Registry
