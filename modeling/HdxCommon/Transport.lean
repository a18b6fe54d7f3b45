/-
The power of the chip that Bluetooth and ANT share (`bt_powerup`, `can_perform_action`).

* `canPerformAction` — the count of clients, kept in a property, decides whether a request
  is carried out;
* `step` — requests of the two clients in any order, and the properties that others set;
* `Tracks` — the chip is powered exactly while a client is on, and the count is their
  number;
* `shared_power_iff` — this holds along a run exactly if each client that comes second
  comes while the SoC is initialised, or while a patch is being downloaded.

A client that comes second otherwise is taken for the first one: the count stays at 1,
and the power is switched on again.  The next power-off then ends at 0, with a client
still on.

Properties and rfkill files can be read and written, and rfkill is not disabled.
-/
import HdxCommon.Runs

namespace Transport

/-! ### The code -/

inductive Client where
  | bt
  | ant
  deriving DecidableEq

instance : Fintype Client := ⟨{.bt, .ant}, fun client => by cases client <;> decide⟩

/-- The properties `wc_transport.*`, and the state of rfkill. -/
structure Chip where
  /-- `ref_count`, the number that `atoi` reads; 0 before it is set -/
  refCount : ℤ
  /-- `soc_initialized` is "1" -/
  socInitialized : Bool
  /-- `patch_dnld_inprog`: "null", or the client for which a patch is downloaded -/
  patchDnldInprog : Option Client
  powered : Bool
  deriving DecidableEq

def isSocInitialized (chip : Chip) : Bool := chip.socInitialized

/-- `can_perform_action`, with the count that it stores. -/
def canPerformAction (on : Bool) (chip : Chip) : Bool × Chip :=
  if on then
    let value :=
      if chip.refCount = 1 then
        if isSocInitialized chip = true ∨ chip.patchDnldInprog ≠ none then chip.refCount + 1
        else chip.refCount
      else chip.refCount + 1
    if value > 2 then (false, chip) else (decide (value = 1), { chip with refCount := value })
  else
    let value := chip.refCount - 1
    if value < 0 then (false, chip) else (decide (value = 0), { chip with refCount := value })

/-- `bt_powerup`, which returns 0 also if other clients use the chip. -/
def btPowerup (en : Bool) (chip : Chip) : Chip :=
  let (can, chip) := canPerformAction en chip
  if can then
    if en then { chip with powered := true }
    else { chip with powered := false, socInitialized := false }
  else chip

/-! ### The two clients -/

structure System where
  chip : Chip
  on : Client → Bool

inductive Action where
  /-- a client asks for power, or gives it up -/
  | request (client : Client) (en : Bool)
  /-- the two properties that count are set from outside -/
  | properties (socInitialized : Bool) (patchDnldInprog : Option Client)
  deriving DecidableEq

/-- A client that is on asks to be off, and the other way round; the output is what
`bt_powerup` returns. -/
def step (s : System) : Action → Option (System × List ℤ)
  | .request client en =>
    if s.on client = en then none
    else some (⟨btPowerup en s.chip, Function.update s.on client en⟩, [0])
  | .properties socInitialized patchDnldInprog =>
    some ({ s with chip := { s.chip with socInitialized, patchDnldInprog } }, [])

def System.init : System := ⟨⟨0, false, none, false⟩, fun _ => false⟩

def clientsOn (on : Client → Bool) : ℤ :=
  (if on .bt = true then 1 else 0) + if on .ant = true then 1 else 0

/-- The chip is powered exactly while a client is on, and the count is their number. -/
structure Tracks (s : System) : Prop where
  powered : s.chip.powered = true ↔ ∃ client, s.on client = true
  refCount : s.chip.refCount = clientsOn s.on

/-- The SoC is initialised, or a patch is being downloaded. -/
def Chip.InUse (chip : Chip) : Prop :=
  isSocInitialized chip = true ∨ chip.patchDnldInprog ≠ none

instance (chip : Chip) : Decidable chip.InUse := inferInstanceAs (Decidable (_ ∨ _))

/-- A client that asks for power while the other is on finds the chip in use. -/
def Counted (s : System) (a : Action) : Prop :=
  ∀ client, a = .request client true → (∃ other, s.on other = true) → s.chip.InUse

instance (s : System) (a : Action) : Decidable (Counted s a) :=
  inferInstanceAs (Decidable (∀ _, _ → _ → _))

section Requests

variable {chip : Chip}

theorem btPowerup_first (h : chip.refCount = 0) :
    btPowerup true chip = { chip with refCount := 1, powered := true } := by
  simp [btPowerup, canPerformAction, h]

theorem btPowerup_second (h : chip.refCount = 1) (hused : chip.InUse) :
    btPowerup true chip = { chip with refCount := 2 } := by
  unfold Chip.InUse at hused
  simp [btPowerup, canPerformAction, h, hused]

/-- The second client is not counted if the chip is not in use. -/
theorem btPowerup_uncounted (h : chip.refCount = 1) (hidle : ¬ chip.InUse) :
    btPowerup true chip = { chip with refCount := 1, powered := true } := by
  unfold Chip.InUse at hidle
  simp [btPowerup, canPerformAction, h, hidle]

theorem btPowerup_last (h : chip.refCount = 1) :
    btPowerup false chip =
      { chip with refCount := 0, powered := false, socInitialized := false } := by
  simp [btPowerup, canPerformAction, h]

theorem btPowerup_leave (h : chip.refCount = 2) :
    btPowerup false chip = { chip with refCount := 1 } := by
  simp [btPowerup, canPerformAction, h]

variable {on : Client → Bool} {client : Client}

theorem clientsOn_pos : 0 < clientsOn on ↔ ∃ client, on client = true := by
  unfold clientsOn
  constructor
  · intro hpos
    by_cases hbt : on .bt = true
    · exact ⟨.bt, hbt⟩
    · refine ⟨.ant, ?_⟩
      by_contra hant
      rw [if_neg hbt, if_neg hant] at hpos
      exact absurd hpos (by decide)
  · rintro ⟨_ | _, hon⟩
    all_goals
      rw [if_pos hon]
      split_ifs <;> decide

theorem clientsOn_update (en : Bool) :
    ∃ others, (others = 0 ∨ others = 1) ∧
      clientsOn on = others + (if on client = true then 1 else 0) ∧
      clientsOn (Function.update on client en) = others + if en = true then 1 else 0 := by
  cases client with
  | bt =>
    refine ⟨if on .ant = true then 1 else 0, by split_ifs <;> simp, ?_, ?_⟩
    · rw [clientsOn, add_comm]
    · rw [clientsOn, Function.update_self, Function.update_of_ne (by decide), add_comm]
  | ant =>
    refine ⟨if on .bt = true then 1 else 0, by split_ifs <;> simp, rfl, ?_⟩
    rw [clientsOn, Function.update_self, Function.update_of_ne (by decide)]

end Requests

section Steps

variable {s s' : System} {a : Action} {o : List ℤ}

theorem tracks_iff : Tracks s ↔
    (s.chip.powered = true ↔ 0 < clientsOn s.on) ∧ s.chip.refCount = clientsOn s.on :=
  ⟨fun h => ⟨h.powered.trans clientsOn_pos.symm, h.refCount⟩,
    fun h => ⟨h.1.trans clientsOn_pos, h.2⟩⟩

theorem Tracks.init : Tracks System.init := tracks_iff.mpr ⟨by decide, rfl⟩

theorem Tracks.request {client : Client} {en : Bool} (h : Tracks s) (hen : s.on client ≠ en)
    (hcounted : Counted s (.request client en)) :
    Tracks ⟨btPowerup en s.chip, Function.update s.on client en⟩ := by
  obtain ⟨hpowered, hcount⟩ := tracks_iff.mp h
  obtain ⟨others, hothers, hbefore, hafter⟩ := @clientsOn_update s.on client en
  rw [tracks_iff, hafter]
  cases en with
  | true =>
    rw [if_neg hen, add_zero] at hbefore
    rw [hbefore] at hpowered hcount
    rcases hothers with rfl | rfl
    · rw [btPowerup_first hcount]
      exact ⟨iff_of_true rfl (by decide), rfl⟩
    · have hused : s.chip.InUse :=
        hcounted client rfl (clientsOn_pos.mp (hbefore ▸ Int.one_pos))
      rw [btPowerup_second hcount hused]
      exact ⟨iff_of_true (hpowered.mpr Int.one_pos) (by decide), rfl⟩
  | false =>
    rw [if_pos (Bool.eq_true_of_not_eq_false hen)] at hbefore
    rw [hbefore] at hpowered hcount
    rcases hothers with rfl | rfl
    · rw [btPowerup_last hcount]
      exact ⟨iff_of_false (by simp) (by decide), rfl⟩
    · rw [btPowerup_leave hcount]
      exact ⟨iff_of_true (hpowered.mpr (by decide)) (by decide), rfl⟩

theorem Tracks.properties (h : Tracks s) (soc : Bool) (inprog : Option Client) :
    Tracks { s with chip := { s.chip with socInitialized := soc, patchDnldInprog := inprog } } :=
  ⟨h.powered, h.refCount⟩

theorem Tracks.step (h : Tracks s) (hcounted : Counted s a) (hs : step s a = some (s', o)) :
    Tracks s' := by
  cases a with
  | request client en =>
    rw [Transport.step, Option.ite_none_left_eq_some] at hs
    obtain ⟨hen, heq⟩ := hs
    cases heq
    exact h.request hen hcounted
  | properties soc inprog =>
    cases hs
    exact h.properties soc inprog

/-- **A request that is not counted loses track**: two clients are on, and the count is 1. -/
theorem Tracks.not_of_uncounted (h : Tracks s) (huncounted : ¬ Counted s a)
    (hs : Transport.step s a = some (s', o)) : ¬ Tracks s' := by
  unfold Counted at huncounted
  push Not at huncounted
  obtain ⟨client, rfl, hother, hidle⟩ := huncounted
  rw [Transport.step, Option.ite_none_left_eq_some] at hs
  obtain ⟨hen, heq⟩ := hs
  cases heq
  obtain ⟨others, hothers, hbefore, hafter⟩ := @clientsOn_update s.on client true
  rw [if_neg hen, add_zero] at hbefore
  have hpos := clientsOn_pos.mpr hother
  obtain rfl : others = 1 := by omega
  intro htracks
  have hcount := htracks.refCount
  rw [hafter, btPowerup_uncounted (h.refCount.trans hbefore) hidle] at hcount
  exact absurd hcount (show ¬ (1 : ℤ) = 1 + 1 by decide)

end Steps

/-- The chip is tracked in every state that a run passes. -/
def TracksAlong (as : List Action) : Prop :=
  ∀ as' os s, as' <+: as → Runs step (fun _ _ => True) System.init as' os s → Tracks s

/-- **Shared power**: along a run the chip is powered exactly while a client is on, and the
count is the number of clients that are on, exactly if every client that comes second comes
while the SoC is initialised or while a patch is being downloaded. -/
theorem shared_power_iff {as : List Action} {os : List ℤ} {s : System}
    (h : Runs step (fun _ _ => True) System.init as os s) :
    TracksAlong as ↔ Runs step Counted System.init as os s := by
  constructor
  · intro htracks
    induction h with
    | nil => exact .nil
    | @snoc is os s s' a o hrun _ hs ih =>
      have hbefore : TracksAlong is := fun as' os' t hle =>
        htracks as' os' t (hle.trans (List.prefix_append is [a]))
      have hhere : Tracks s := hbefore is os s List.prefix_rfl hrun
      have hcounted : Counted s a := by
        by_contra huncounted
        exact hhere.not_of_uncounted huncounted hs
          (htracks _ _ s' List.prefix_rfl (.snoc hrun trivial hs))
      exact .snoc (ih hbefore) hcounted hs
  · rintro hcounted as' os' t ⟨rest, rfl⟩ hrun
    obtain ⟨os'', t', hrun'⟩ := hcounted.of_append
    obtain ⟨-, rfl⟩ := hrun.det hrun'
    exact hrun'.inv (fun _ _ s => Tracks s) Tracks.init fun _ _ _ _ _ _ htracks hc hs =>
      htracks.step hc hs

/-- ANT comes while the patch for Bluetooth is downloaded; then Bluetooth leaves. -/
theorem shared_power_of_download :
    TracksAlong [.request .bt true, .properties false (some .bt), .request .ant true,
      .request .bt false] := by
  obtain ⟨s, hrun⟩ : ∃ s, Runs step Counted System.init [.request .bt true,
      .properties false (some .bt), .request .ant true, .request .bt false] [0, 0, 0] s :=
    exists_runs_of_outputs (by decide) (by decide)
  exact (shared_power_iff (hrun.mono fun _ _ _ => trivial)).mpr hrun

/-- ANT comes before the SoC is initialised: when Bluetooth leaves, ANT loses its power. -/
theorem uncounted_client_loses_power :
    ∃ os s, Runs step (fun _ _ => True) System.init
      [.request .bt true, .request .ant true, .request .bt false] os s ∧
      s.on .ant = true ∧ s.chip.powered = false ∧ s.chip.refCount = 0 ∧
      clientsOn s.on = 1 :=
  ⟨_, _, runs_of_exec rfl, rfl, rfl, rfl, rfl⟩

end Transport
