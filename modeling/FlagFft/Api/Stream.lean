import FlagFft.Api.Descriptor

/-! The stream of a plan that an NPU executes with SiP: three copies of it, which flagfftSetStream updates one after
the other, and the copy an exec call runs on. -/
namespace FlagFft.Api
variable {Stream : Type}

/- A live plan. A SiP plan is known by the stream its handle holds, and may be missing. -/
structure StreamPlan (Stream : Type) where
  type : TransformType
  npuSipEnabled : Bool
  npuSipForward : Option Stream
  npuSipInverse : Option Stream
  stream : Stream

/- configure_npu_sip_execution for a descriptor that SiP takes: SiP plans for the directions of the type, all streams
the one given. -/
def StreamPlan.created (type : TransformType) (stream : Stream) : StreamPlan Stream :=
  { type := type
    npuSipEnabled := type = .c2c ∨ type = .r2c ∨ type = .c2r
    npuSipForward := if type = .c2c ∨ type = .r2c then some stream else none
    npuSipInverse := if type = .c2c ∨ type = .c2r then some stream else none
    stream := stream }

/- sip_plan_set_stream, and whether it succeeded; `ok` is the outcome of the SiP call. -/
def sipPlanSetStream (plan : Option Stream) (stream : Stream) (ok : Bool) : Option Stream × Bool :=
  match plan with
  | none => (none, true)
  | some held => if ok then (some stream, true) else (some held, false)

/- flagfftSetStream; no failure is FLAGFFT_SUCCESS. -/
def StreamPlan.setStream (plan : StreamPlan Stream) (stream : Stream) (forwardOk inverseOk : Bool) :
    StreamPlan Stream × Option Failure :=
  if plan.npuSipEnabled = true then
    let forward := sipPlanSetStream plan.npuSipForward stream forwardOk
    let inverse := sipPlanSetStream plan.npuSipInverse stream inverseOk
    let updated := { plan with npuSipForward := forward.1, npuSipInverse := inverse.1 }
    if forward.2 = false then (updated, some .execFailed)
    else if inverse.2 = false then (updated, some .execFailed)
    else ({ updated with stream := stream }, none)
  else ({ plan with stream := stream }, none)

/- A call of the exec function of a type; only two of them read a direction. -/
structure ExecCall where
  function : TransformType
  direction : Option Direction
  nullPointer : Bool
  inPlace : Bool

/- Inverse or not, as the function decides. -/
def ExecCall.inverse (call : ExecCall) : Except Failure Bool :=
  match call.function with
  | .r2c | .d2z => .ok false
  | .c2r | .z2d => .ok true
  | .c2c | .z2z => match call.direction with
    | some direction => .ok (direction = .inverse)
    | none => .error .invalidValue
  | .other _ => .error .invalidType

/- The functions with a SiP path. -/
def ExecCall.sipPath (call : ExecCall) : Bool := call.function = .c2c ∨ call.function = .r2c ∨ call.function = .c2r

/- flagfftExecC2C and the others: the stream the transform runs on. -/
def StreamPlan.execute (plan : StreamPlan Stream) (call : ExecCall) : Except Failure Stream :=
  if call.nullPointer = true then .error .invalidValue
  else if plan.type ≠ call.function then .error .invalidType
  else call.inverse >>= fun inverse =>
    if call.sipPath = true ∧ plan.npuSipEnabled = true ∧ call.inPlace = false then
      match if inverse = true then plan.npuSipInverse else plan.npuSipForward with
      | some stream => .ok stream
      | none => .error .execFailed
    else .ok plan.stream

inductive StreamCall (Stream : Type) where
  | setStream (stream : Stream) (forwardOk inverseOk : Bool)
  | exec (call : ExecCall)

/- In a sequence of calls every exec runs on the last stream that was set with success, and a call that fails to set
one leaves all three copies as they were. -/
def Coherent (plan : StreamPlan Stream) (last : Stream) : List (StreamCall Stream) → Prop
  | [] => True
  | .setStream stream forwardOk inverseOk :: rest =>
    let after := plan.setStream stream forwardOk inverseOk
    (after.2 ≠ none → after.1 = plan) ∧ Coherent after.1 (if after.2 = none then stream else last) rest
  | .exec call :: rest => (∀ stream, plan.execute call = .ok stream → stream = last) ∧ Coherent plan last rest

/- The SiP plans that a plan of a type has are updated with success. -/
def succeeds (type : TransformType) (forwardOk inverseOk : Bool) : Bool :=
  match type with
  | .c2c => forwardOk && inverseOk
  | .r2c => forwardOk
  | .c2r => inverseOk
  | _ => true

/- No update of the two SiP plans of a complex transform succeeds by half, unless the stream is the one set already. -/
def Whole (type : TransformType) (last : Stream) : List (StreamCall Stream) → Prop
  | [] => True
  | .setStream stream forwardOk inverseOk :: rest =>
    (type = .c2c → forwardOk = inverseOk ∨ stream = last) ∧
      Whole type (if succeeds type forwardOk inverseOk = true then stream else last) rest
  | .exec _ :: rest => Whole type last rest

section Runs
variable {type : TransformType} {last stream : Stream}

theorem createdExecutes {call : ExecCall} (ran : (StreamPlan.created type last).execute call = .ok stream) :
    stream = last := by
  have held : ∀ inverse : Bool, ∀ s ∈ if inverse = true then (StreamPlan.created type last).npuSipInverse
      else (StreamPlan.created type last).npuSipForward, s = last := by
    intro inverse s found
    cases inverse <;> simp [StreamPlan.created] at found <;> exact found.2.symm
  unfold StreamPlan.execute at ran
  split at ran
  · cases ran
  · split at ran
    · cases ran
    · cases direction : call.inverse with
      | error failure =>
        rw [direction] at ran
        cases ran
      | ok inverse =>
        rw [direction] at ran
        simp only [bind, Except.bind] at ran
        split at ran
        · split at ran
          case h_1 s found =>
            cases ran
            exact held inverse _ found
          case h_2 => cases ran
        · cases ran
          rfl

/- An update that does not succeed by half leaves a plan as it is created, with the new stream or with the old one. -/
theorem setWhole {forwardOk inverseOk : Bool} (whole : type = .c2c → forwardOk = inverseOk ∨ stream = last) :
    (StreamPlan.created type last).setStream stream forwardOk inverseOk =
      if succeeds type forwardOk inverseOk = true then (StreamPlan.created type stream, none)
      else (StreamPlan.created type last, some .execFailed) := by
  cases type with
  | c2c =>
    rcases whole rfl with rfl | rfl
    · cases forwardOk <;> rfl
    · cases forwardOk <;> cases inverseOk <;> rfl
  | r2c => cases forwardOk <;> rfl
  | c2r => cases inverseOk <;> rfl
  | z2z | d2z | z2d | other => rfl

/- One that does fails, and one of the SiP plans has the new stream. -/
theorem setHalf {forwardOk inverseOk : Bool} (half : forwardOk ≠ inverseOk) (new : stream ≠ last) :
    ((StreamPlan.created .c2c last).setStream stream forwardOk inverseOk).2 ≠ none ∧
      ((StreamPlan.created .c2c last).setStream stream forwardOk inverseOk).1 ≠ StreamPlan.created .c2c last := by
  cases forwardOk with
  | true =>
    obtain rfl : inverseOk = false := by simpa using half.symm
    exact ⟨nofun, fun same => new (Option.some.inj (congrArg StreamPlan.npuSipForward same))⟩
  | false =>
    obtain rfl : inverseOk = true := by simpa using half.symm
    exact ⟨nofun, fun same => new (Option.some.inj (congrArg StreamPlan.npuSipInverse same))⟩

theorem coherentSet {forwardOk inverseOk : Bool} {rest : List (StreamCall Stream)}
    (whole : type = .c2c → forwardOk = inverseOk ∨ stream = last) :
    Coherent (StreamPlan.created type last) last (.setStream stream forwardOk inverseOk :: rest) ↔
      Coherent (StreamPlan.created type (if succeeds type forwardOk inverseOk = true then stream else last))
        (if succeeds type forwardOk inverseOk = true then stream else last) rest := by
  simp only [Coherent, setWhole whole]
  split <;> simp

/- Induction on the calls: as long as no update succeeds by half the plan is the one created with the last stream. -/
theorem streamCoherent (type : TransformType) (null : Stream) (calls : List (StreamCall Stream)) :
    Coherent (StreamPlan.created type null) null calls ↔ Whole type null calls := by
  induction calls generalizing null with
  | nil => exact Iff.rfl
  | cons call rest ih =>
    cases call with
    | exec call =>
      rw [Coherent, ih, Whole]
      exact and_iff_right fun stream ran => createdExecutes ran
    | setStream stream forwardOk inverseOk =>
      by_cases whole : type = .c2c → forwardOk = inverseOk ∨ stream = null
      · rw [coherentSet whole, ih, Whole]
        exact (and_iff_right whole).symm
      · obtain ⟨rfl, apart⟩ := Classical.not_imp.mp whole
        obtain ⟨half, new⟩ := not_or.mp apart
        refine iff_of_false ?_ fun holds => whole holds.1
        rintro ⟨kept, -⟩
        exact (setHalf half new).2 (kept (setHalf half new).1)

/- Only the forward plan takes stream 7, and the call fails: a forward transform then runs on stream 7, not on the
null stream. -/
theorem halfSetStream :
    ¬ Coherent (StreamPlan.created .c2c 0) 0
      [.setStream 7 true false, .exec { function := .c2c, direction := some .forward, nullPointer := false, inPlace := false }] ∧
    ((StreamPlan.created .c2c 0).setStream 7 true false).1.execute
      { function := .c2c, direction := some .forward, nullPointer := false, inPlace := false } = .ok 7 := by
  refine ⟨?_, rfl⟩
  rintro ⟨kept, -⟩
  exact absurd (congrArg StreamPlan.npuSipForward (kept (by decide))) (by decide)

end Runs

end FlagFft.Api
