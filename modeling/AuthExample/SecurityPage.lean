import AuthExample.Api
import AuthExample.Runs

/-!
# The two Security pages

The dashboard and the platform console each have a page that enrols, verifies, disables
and regenerates MFA. The two are copies : they differ in what Cancel clears, in how the
first mode is read, and in that the dashboard refreshes its session after a change. Each
handler is written once here, with the page as a parameter where they differ.

A handler runs up to its `await`, which puts a request in flight, and the rest runs when
the request settles. Requests settle in any order, with any outcome, and the user takes
any action the screen offers meanwhile. `always_oneTime_iff` says which runs keep the
one-time secrets on their own screen.
-/

namespace AuthExample

variable {E : Type}

/-- The page's copy. -/
inductive Console where
  | dashboard
  | platform
  deriving DecidableEq

/-- The MFA lifecycle mode. -/
inductive Mode where
  | off
  | enrolling
  | on
  deriving DecidableEq

/-- `MfaSetupResult`, `PlatformMfaSetup` : the one-time enrolment payload. -/
structure MfaSetup where
  secret : String
  qrCodeUri : String
  recoveryCodes : List String
  deriving DecidableEq

/-- A request in flight, with the code it carries. -/
inductive MfaRequest where
  | setup
  | verifyEnable (code : String)
  | disable (code : String)
  | regenerate (code : String)
  | refresh
  deriving DecidableEq

/-- The page's state and its requests in flight. The mode is absent until it is read. -/
structure SecurityPage where
  mode : Option Mode := none
  setup : Option MfaSetup := none
  errorCode : Option String := none
  busy : Bool := false
  disableOpen : Bool := false
  regenerating : Bool := false
  newCodes : Option (List String) := none
  inFlight : List MfaRequest := []

namespace SecurityPage

/-! ## The handlers -/

/-- Start a request. -/
def send (request : MfaRequest) (p : SecurityPage) : SecurityPage :=
  { p with inFlight := request :: p.inFlight }

/-- Show an error. -/
def fail (lib : ClientErrors E) (err : Thrown E) (p : SecurityPage) : SecurityPage :=
  { p with errorCode := some (codeOf lib err) }

/-- The first mode : the session's on the dashboard, that of `/me` on the platform page,
which falls back to off. -/
def loaded (lib : ClientErrors E) (mfaEnabled : Except (Thrown E) Bool) (p : SecurityPage) :
    SecurityPage :=
  match mfaEnabled with
  | .ok mfaEnabled => { p with mode := some (if mfaEnabled then .on else .off) }
  | .error err => { p.fail lib err with mode := some .off }

/-- `beginEnroll` up to its request. -/
def beginEnroll (p : SecurityPage) : SecurityPage :=
  { p with busy := true, errorCode := none }.send .setup

/-- `beginEnroll` once its request settles. -/
def beginEnrollSettled (lib : ClientErrors E) (outcome : Except (Thrown E) MfaSetup)
    (p : SecurityPage) : SecurityPage :=
  let p := match outcome with
    | .ok setup => { p with setup := some setup, mode := some .enrolling }
    | .error err => p.fail lib err
  { p with busy := false }

/-- The dashboard refreshes the session after a change. -/
def refresh (console : Console) (p : SecurityPage) : SecurityPage :=
  match console with
  | .dashboard => p.send .refresh
  | .platform => p

/-- `verifyEnable` up to its request. -/
def verifyEnable (code : String) (p : SecurityPage) : SecurityPage :=
  { p with errorCode := none }.send (.verifyEnable code)

/-- `verifyEnable` once its request settles. -/
def verifyEnableSettled (console : Console) (lib : ClientErrors E)
    (outcome : Except (Thrown E) Unit) (p : SecurityPage) : SecurityPage :=
  match outcome with
  | .ok () => { p with setup := none, mode := some .on }.refresh console
  | .error err => p.fail lib err

/-- `disable` up to its request. -/
def disable (code : String) (p : SecurityPage) : SecurityPage :=
  { p with errorCode := none }.send (.disable code)

/-- `disable` once its request settles. -/
def disableSettled (console : Console) (lib : ClientErrors E)
    (outcome : Except (Thrown E) Unit) (p : SecurityPage) : SecurityPage :=
  match outcome with
  | .ok () =>
    { p with disableOpen := false, newCodes := none, mode := some .off }.refresh console
  | .error err => p.fail lib err

/-- `regenerate` up to its request. -/
def regenerate (code : String) (p : SecurityPage) : SecurityPage :=
  { p with errorCode := none }.send (.regenerate code)

/-- `regenerate` once its request settles. -/
def regenerateSettled (lib : ClientErrors E) (outcome : Except (Thrown E) (List String))
    (p : SecurityPage) : SecurityPage :=
  match outcome with
  | .ok codes => { p with newCodes := some codes, regenerating := false }
  | .error err => p.fail lib err

/-- `await refresh()` settles. -/
def refreshSettled (lib : ClientErrors E) (outcome : Except (Thrown E) Unit) (p : SecurityPage) :
    SecurityPage :=
  match outcome with
  | .ok () => p
  | .error err => p.fail lib err

/-- Cancel an enrolment. Only the platform page discards what it was shown. -/
def cancel (console : Console) (p : SecurityPage) : SecurityPage :=
  match console with
  | .dashboard => { p with mode := some .off }
  | .platform => { p with setup := none, errorCode := none, mode := some .off }

/-- Open or close the regenerate panel. -/
def toggleRegenerate (p : SecurityPage) : SecurityPage :=
  { p with newCodes := none, regenerating := !p.regenerating }

/-! ## Runs of a page -/

/-- A request that settles, with its outcome. -/
inductive Settled (E : Type) where
  | setup (outcome : Except (Thrown E) MfaSetup)
  | verifyEnable (code : String) (outcome : Except (Thrown E) Unit)
  | disable (code : String) (outcome : Except (Thrown E) Unit)
  | regenerate (code : String) (outcome : Except (Thrown E) (List String))
  | refresh (outcome : Except (Thrown E) Unit)

/-- The request that settled. -/
def Settled.request : Settled E → MfaRequest
  | setup _ => .setup
  | verifyEnable code _ => .verifyEnable code
  | disable code _ => .disable code
  | regenerate code _ => .regenerate code
  | refresh _ => .refresh

/-- The first mode is read, the user acts, or a request settles. -/
inductive Act (E : Type) where
  | loaded (mfaEnabled : Except (Thrown E) Bool)
  | beginEnroll
  | cancel
  | verifyEnable (code : String)
  | toggleRegenerate
  | regenerate (code : String)
  | setDisableOpen (isOpen : Bool)
  | disable (code : String)
  | settled (s : Settled E)

/-- What can happen : the actions the rendered screen offers, and the requests in flight.
The session the dashboard reads does not fail. -/
def offers (console : Console) (p : SecurityPage) : Act E → Bool
  | .loaded (.ok _) => p.mode.isNone
  | .loaded (.error _) => p.mode.isNone && console = .platform
  | .beginEnroll => p.mode = some .off && !p.busy
  | .cancel => p.mode = some .enrolling && p.setup.isSome
  | .verifyEnable _ => p.mode = some .enrolling && p.setup.isSome
  | .toggleRegenerate => p.mode = some .on
  | .regenerate _ => p.mode = some .on && p.regenerating
  | .setDisableOpen _ => p.mode = some .on
  | .disable _ => p.mode = some .on && p.disableOpen
  | .settled s => s.request ∈ p.inFlight

/-- A settled request leaves the flight, and the rest of its handler runs. -/
def settle (console : Console) (lib : ClientErrors E) (s : Settled E) (p : SecurityPage) :
    SecurityPage :=
  let p := { p with inFlight := p.inFlight.erase s.request }
  match s with
  | .setup outcome => p.beginEnrollSettled lib outcome
  | .verifyEnable _ outcome => p.verifyEnableSettled console lib outcome
  | .disable _ outcome => p.disableSettled console lib outcome
  | .regenerate _ outcome => p.regenerateSettled lib outcome
  | .refresh outcome => p.refreshSettled lib outcome

/-- The handler of an action. -/
def handle (console : Console) (lib : ClientErrors E) (p : SecurityPage) : Act E → SecurityPage
  | .loaded mfaEnabled => p.loaded lib mfaEnabled
  | .beginEnroll => p.beginEnroll
  | .cancel => p.cancel console
  | .verifyEnable code => p.verifyEnable code
  | .toggleRegenerate => p.toggleRegenerate
  | .regenerate code => p.regenerate code
  | .setDisableOpen isOpen => { p with disableOpen := isOpen }
  | .disable code => p.disable code
  | .settled s => p.settle console lib s

/-- One step of the page. -/
def step (console : Console) (lib : ClientErrors E) (p : SecurityPage) (a : Act E) :
    Option SecurityPage :=
  if p.offers console a then some (p.handle console lib a) else none

/-! ## The one-time secrets -/

/-- The enrolment secret is held on the enrolment screen only, and always there; fresh
recovery codes are held on the screen of active MFA only. -/
def OneTime (p : SecurityPage) : Prop :=
  (p.setup.isSome = true ↔ p.mode = some .enrolling) ∧
    (p.newCodes.isSome = true → p.mode = some .on)

/-- A step that keeps the secrets on their screen : Cancel on the platform page only,
and no request that succeeds over the screen of another. -/
def StaysOnScreen (console : Console) (p : SecurityPage) : Act E → Prop
  | .cancel => console = .platform
  | .settled (.setup (.ok _)) => p.newCodes = none
  | .settled (.disable _ (.ok _)) => p.setup = none
  | .settled (.regenerate _ (.ok _)) => p.mode = some .on
  | _ => True

/-- What leaves the mode and the secrets alone keeps them on their screen. -/
theorem OneTime.congr {p p' : SecurityPage} (h : p.OneTime) (hmode : p'.mode = p.mode)
    (hsetup : p'.setup = p.setup) (hcodes : p'.newCodes = p.newCodes) : p'.OneTime := by
  rwa [OneTime, hmode, hsetup, hcodes]

theorem OneTime.setup_eq_none {p : SecurityPage} (h : p.OneTime)
    (hmode : p.mode ≠ some .enrolling) : p.setup = none :=
  Option.not_isSome_iff_eq_none.1 fun hs => hmode (h.1.1 hs)

theorem OneTime.newCodes_eq_none {p : SecurityPage} (h : p.OneTime)
    (hmode : p.mode ≠ some .on) : p.newCodes = none :=
  Option.not_isSome_iff_eq_none.1 fun hs => hmode (h.2 hs)

/-- A settled request keeps the secrets on their screen exactly when it stays on screen. -/
theorem oneTime_settle {console : Console} {lib : ClientErrors E} {p : SecurityPage}
    {s : Settled E} (hp : p.OneTime) :
    (p.settle console lib s).OneTime ↔ p.StaysOnScreen console (.settled s) := by
  cases s with
  | setup outcome =>
    cases outcome with
    | ok setup => simp [settle, beginEnrollSettled, OneTime, StaysOnScreen]
    | error err => exact iff_of_true (hp.congr rfl rfl rfl) trivial
  | verifyEnable code outcome =>
    cases outcome with
    | ok u =>
      refine iff_of_true ?_ trivial
      cases console <;>
        simp [settle, Settled.request, verifyEnableSettled, refresh, send, OneTime]
    | error err => exact iff_of_true (hp.congr rfl rfl rfl) trivial
  | disable code outcome =>
    cases outcome with
    | ok u => cases console <;> simp [settle, disableSettled, refresh, send, OneTime, StaysOnScreen]
    | error err => exact iff_of_true (hp.congr rfl rfl rfl) trivial
  | regenerate code outcome =>
    cases outcome with
    | ok codes => simpa [settle, regenerateSettled, OneTime, StaysOnScreen] using fun _ => hp.1
    | error err => exact iff_of_true (hp.congr rfl rfl rfl) trivial
  | refresh outcome =>
    cases outcome <;> exact iff_of_true (hp.congr rfl rfl rfl) trivial

/-- A step keeps the secrets on their screen exactly when it stays on screen. -/
theorem oneTime_handle {console : Console} {lib : ClientErrors E} {p : SecurityPage} {a : Act E}
    (hp : p.OneTime) (ha : p.offers console a = true) :
    (p.handle console lib a).OneTime ↔ p.StaysOnScreen console a := by
  cases a with
  | loaded mfaEnabled =>
    have hmode : p.mode = none := by cases mfaEnabled <;> simp_all [offers]
    have hsetup := hp.setup_eq_none (by simp [hmode])
    have hcodes := hp.newCodes_eq_none (by simp [hmode])
    refine iff_of_true ?_ trivial
    cases mfaEnabled with
    | ok mfaEnabled => cases mfaEnabled <;> simp [handle, loaded, OneTime, hsetup, hcodes]
    | error err => simp [handle, loaded, fail, OneTime, hsetup, hcodes]
  | beginEnroll => exact iff_of_true (hp.congr rfl rfl rfl) trivial
  | cancel =>
    have hmode : p.mode = some .enrolling ∧ p.setup.isSome = true := by simpa [offers] using ha
    have hcodes := hp.newCodes_eq_none (by simp [hmode.1])
    cases console <;> simp [handle, cancel, OneTime, StaysOnScreen, hmode.2, hcodes]
  | verifyEnable code => exact iff_of_true (hp.congr rfl rfl rfl) trivial
  | toggleRegenerate =>
    exact iff_of_true ⟨hp.1, by simp [handle, toggleRegenerate]⟩ trivial
  | regenerate code => exact iff_of_true (hp.congr rfl rfl rfl) trivial
  | setDisableOpen isOpen => exact iff_of_true (hp.congr rfl rfl rfl) trivial
  | disable code => exact iff_of_true (hp.congr rfl rfl rfl) trivial
  | settled s => exact oneTime_settle hp

/-- A run of either page keeps the one-time secrets on their screen exactly when all its
steps stay on screen. -/
theorem always_oneTime_iff (console : Console) (lib : ClientErrors E) (as : List (Act E)) :
    Runs.Always (step console lib) OneTime {} as ↔
      Runs.Along (step console lib) (StaysOnScreen console) {} as := by
  refine Runs.always_iff_along (K := fun _ => True) (fun _ _ _ _ _ _ => trivial)
    (fun p a p' _ hp hstep => ?_) trivial ⟨by simp, by simp⟩
  unfold step at hstep
  split_ifs at hstep with ha
  obtain rfl := Option.some.inj hstep
  exact oneTime_handle hp ha

/-- On the dashboard, an enrolment is begun and cancelled. -/
def cancelledEnrolment : List (Act E) :=
  [.loaded (.ok false), .beginEnroll, .settled (.setup (.ok
    { secret := "JBSWY3DP", qrCodeUri := "otpauth://totp", recoveryCodes := ["a"] })), .cancel]

/-- On the platform page, codes are regenerated while MFA is disabled, and arrive last. -/
def lateCodes : List (Act E) :=
  [.loaded (.ok true), .toggleRegenerate, .regenerate "111111", .setDisableOpen true,
    .disable "222222", .settled (.disable "222222" (.ok ())),
    .settled (.regenerate "111111" (.ok ["a"]))]

theorem not_always_oneTime :
    ¬ Runs.Always (step .dashboard plainErrors) OneTime {} cancelledEnrolment ∧
      ¬ Runs.Always (step .platform plainErrors) OneTime {} lateCodes := by
  refine ⟨fun h => ?_, fun h => ?_⟩
  · have hend := Runs.always_iff.1 h cancelledEnrolment _ (List.prefix_refl _) rfl
    exact absurd (hend.1.1 rfl) (by decide)
  · have hend := Runs.always_iff.1 h lateCodes _ (List.prefix_refl _) rfl
    exact absurd (hend.2 rfl) (by decide)

end SecurityPage

end AuthExample
