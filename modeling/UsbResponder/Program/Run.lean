import UsbResponder.Program.Descriptors
import UsbResponder.Program.Options
import UsbResponder.Responder.Endpoints
import UsbResponder.Responder.FrameWrites

/-!
# The program

`main` and the way of `usb_responder_run` to the loop and from it: `ep0` is opened, the
descriptors and the strings are written to it, the loop runs, and everything is closed. What
the outside does on the way to the loop is `Outside`; the rest is in the inputs and the
state of the loop.

The result is `main_lifecycle`. It is put together from the parts: which command lines are
accepted (`Program.Options`), what the blobs are (`Program.Descriptors`), how they are
written (the slices of `Responder.FrameWrites`, which hold for any data), and what the loop
leaves behind when it is left (`Responder.Endpoints` and the shutdown of the uploads).

The loop asks for `should_stop` before every round, and the flag is part of its state.
Nothing in the program sets it, so `usb_responder_run` returns `false` whenever it returns,
and the program never exits with 0; this is proved of the loop (`handleIoLoop_state`) and
not built into the definitions. Messages, and the handling of signals, which there is none
of, are left out.
-/

namespace UsbResponder

open CString Handles

variable {σ : Type}

namespace Program

/-! ### The source -/

/-- What happens outside of the program before the loop: whether `ep0` can be opened, which
allocations succeed, and what the writes on `ep0` do. -/
structure Outside where
  /-- The descriptor that opening `ep0` would return. -/
  openEp0 : Option ℕ
  /-- Whether the calls of `realloc` succeed. -/
  alloc : ℕ → Bool
  /-- Whether `calloc` succeeds. -/
  calloc : Bool
  /-- What new memory holds. -/
  fresh : UInt8
  /-- The outcomes of the `write` calls on `ep0`. -/
  writes : List WriteOutcome

/-- `open_ep` on `ep0`, whose path has to fit into 512 bytes. A path that does not fit is
not opened. -/
def openEp0 (outside : Outside) (mount : Bytes) : Option ℕ :=
  if 512 ≤ (mount ++ utf8 "/" ++ utf8 "ep0").length then none else outside.openEp0

/-- The part of `usb_responder_run` that builds the blobs and writes them; the writes on
`ep0` are those of `dev`. -/
def writeBlobs (os : Os σ) (outside : Outside) (dev : Device σ) : Bool × Device σ :=
  match buildDescriptorsBlob outside.fresh outside.alloc with
  | some (some desc) =>
    match buildStringsBlob outside.calloc with
    | some (some strings) =>
      match writeFull os desc dev with
      | (false, dev) => (false, dev)
      | (true, dev) => writeFull os strings dev
    | _ => (false, dev)
  | _ => (false, dev)

/-- What `usb_responder_run` has done: the openings and closings of `ep0`, the writes on it,
whether the loop was entered, and the result with the state it has left, none while the loop
runs. -/
structure Run (σ : Type) where
  ep0 : List (HandleEvent ℕ)
  writes : List IoEvent
  entered : Bool
  returned : Option (Bool × Runtime σ)

/-- `usb_responder_run`, with `ep0` and the allocator around the loop. Every way out closes
what was opened. -/
def run (os : Os σ) (shell : ExecShell σ) (outside : Outside) (mount : Bytes)
    (inputs : List LoopInput) (st : LoopState σ) : Run σ :=
  match openEp0 outside mount with
  | none =>
    { ep0 := [], writes := [], entered := false
      returned := usbResponderRun os shell false inputs st }
  | some fd =>
    let (ok, dev) := writeBlobs os outside { st.rt.dev with tx := outside.writes, log := [] }
    let returned := usbResponderRun os shell ok inputs
      { st with rt := { st.rt with dev := { st.rt.dev with proc := dev.proc } } }
    { ep0 := .opened fd :: if returned.isSome then [.closed fd] else []
      writes := dev.log, entered := ok, returned := returned }

/-- `main`: the exit status, none while the loop runs, and what `usb_responder_run` has done
if it was called. -/
def main (os : Os σ) (shell : ExecShell σ) (args : List Bytes) (outside : Outside)
    (inputs : List LoopInput) (s : σ) (tx : List WriteOutcome) (rx : List RxOutcome) :
    Option ℕ × Option (Run σ) :=
  match parseOptions os.ulongMax args {} with
  | none => (some 1, none)
  | some cfg =>
    match cfg.ffsMount with
    | none => (some 1, none)
    | some mount =>
      let r := run os shell outside mount inputs (startState cfg.limits s tx rx)
      (r.returned.map fun result => if result.1 then 0 else 2, some r)

/-! ### The way to the loop -/

section Blobs

variable (os : Os σ) (outside : Outside) {dev : Device σ}

/-- All the data `ep0` is to get, the descriptors in front of the strings. -/
def blobs : Bytes := descriptorsBlob ++ stringsBlob

/-- What the writes on `ep0` have sent is a part of the blobs, and it is all of them when
the loop is entered. A failing allocation sends nothing. -/
private theorem writeBlobs_slices (hlog : dev.log = []) :
    sentBytes (writeBlobs os outside dev).2.log <+: blobs ∧
      ((writeBlobs os outside dev).1 = true →
        sentBytes (writeBlobs os outside dev).2.log = blobs) := by
  have hnothing : sentBytes dev.log <+: blobs := by
    rw [hlog]
    exact List.nil_prefix
  rw [writeBlobs]
  obtain ⟨hdesc, -⟩ | hdesc := buildDescriptorsBlob_cases outside.fresh outside.alloc
  · rw [hdesc]
    exact ⟨hnothing, fun hok => absurd hok Bool.false_ne_true⟩
  rw [hdesc]
  obtain ⟨hstrings, -⟩ | hstrings := buildStringsBlob_cases outside.calloc
  · rw [hstrings]
    exact ⟨hnothing, fun hok => absurd hok Bool.false_ne_true⟩
  rw [hstrings]
  dsimp only
  obtain ⟨writes₁, hlogged₁, hslices₁⟩ := writeFullLoop_slices os dev.tx
    (show descriptorsBlob.length ≤ ioChunk by decide +kernel) dev
  rw [← writeFull] at hlogged₁ hslices₁
  rcases hrun₁ : writeFull os descriptorsBlob dev with ⟨_ | _, dev₁⟩
  · rw [hrun₁] at hlogged₁ hslices₁
    have hpart := (hslices₁.fail stringsBlob).part
    rw [Device.Logged, hlog, List.nil_append] at hlogged₁
    rw [← hlogged₁] at hpart
    exact ⟨hpart, fun hok => absurd hok Bool.false_ne_true⟩
  · rw [hrun₁] at hlogged₁ hslices₁
    obtain ⟨writes₂, hlogged₂, hslices₂⟩ := writeFullLoop_slices os dev₁.tx
      (show stringsBlob.length ≤ ioChunk by decide) dev₁
    rw [← writeFull] at hlogged₂ hslices₂
    have hall := hslices₁.append hslices₂
    have hlogged := hlogged₁.trans hlogged₂
    rw [Device.Logged, hlog, List.nil_append] at hlogged
    rw [← hlogged] at hall
    exact ⟨hall.part, hall.done.mp⟩

end Blobs

/-! ### The whole run -/

/-- What `main` does with `ep0` and with everything else, in a run of `usb_responder_run`. -/
structure Run.Orderly (run : Run σ) : Prop where
  /-- Nothing else is written to `ep0`. -/
  sent : sentBytes run.writes <+: blobs
  /-- The loop is entered when descriptors and strings are there. -/
  described : run.entered = true → ∃ desc strings, Descriptors.Describes desc ∧
    Descriptors.Names strings ∧ sentBytes run.writes = desc ++ strings
  running : run.returned = none → run.entered = true ∧ ∃ fd, run.ep0 = [.opened fd]
  /-- `ep0` is closed once if it was opened. -/
  closed : run.returned.isSome = true → ∃ fds : List ℕ, fds.length ≤ 1 ∧
    run.ep0 = fds.flatMap fun fd => [.opened fd, .closed fd]
  /-- So is each bulk endpoint, and no session is left. -/
  released : ∀ result ∈ run.returned, result.1 = false ∧
    result.2.dev.proc.sessions = fileOpsInit ∧ ∀ ep, ∃ fds : List ℕ,
      endpointTrace ep result.2.dev.log = fds.flatMap fun fd => [.opened fd, .closed fd]
  /-- Without the loop there was no endpoint. -/
  idle : run.entered = false → ∀ result ∈ run.returned, result.2.dev.log = []

section Run

variable (os : Os σ) (shell : ExecShell σ) (outside : Outside) (inputs : List LoopInput)

/-- What leaves `usb_responder_run` has released everything. The result is `false`: nothing
sets `should_stop`. -/
private theorem released_of_usbResponderRun {setup : Bool} {st : LoopState σ} (hst : st.Polling)
    (hstop : st.shouldStop = false) {result : Bool × Runtime σ}
    (h : usbResponderRun os shell setup inputs st = some result) :
    result.1 = false ∧ result.2.dev.proc.sessions = fileOpsInit ∧ ∀ ep, ∃ fds : List ℕ,
      endpointTrace ep result.2.dev.log = fds.flatMap fun fd => [.opened fd, .closed fd] := by
  obtain ⟨ok, rt⟩ := result
  obtain ⟨⟨st', hst', rfl⟩, hfailed⟩ :=
    exists_of_usbResponderRun (fun input _ h => h.ioStep os shell input) hst h
  refine ⟨hfailed hstop, rfl, fun ep => ?_⟩
  exact holds_none_iff.mp (closeEps_fd st'.rt ep ▸ hst'.tracked.closeEps ep)

/-- Without the set-up the way out is taken at once. -/
private theorem usbResponderRun_false (st : LoopState σ) :
    usbResponderRun os shell false inputs st = some (false, runExit os st.rt) := rfl

/-- **The way of a run**, from the state in which nothing is open. -/
theorem run_orderly (mount : Bytes) (limits : Config) (s : σ) (tx : List WriteOutcome)
    (rx : List RxOutcome) :
    (run os shell outside mount inputs (startState limits s tx rx)).Orderly := by
  have hstart := startState_polling limits s tx rx
  rw [run]
  rcases openEp0 outside mount with _ | fd
  · rw [usbResponderRun_false]
    refine ⟨List.nil_prefix, fun h => absurd h Bool.false_ne_true, fun h => by simp at h,
      fun _ => ⟨[], Nat.zero_le _, rfl⟩, fun result hresult => ?_, fun _ result hresult => ?_⟩
    · exact released_of_usbResponderRun os shell inputs hstart rfl
        ((usbResponderRun_false os shell inputs _).trans hresult)
    · obtain rfl := Option.mem_some_iff.mp hresult
      rfl
  obtain ⟨hsent, hall⟩ := writeBlobs_slices os outside (show ({ (startState limits s tx rx).rt.dev
    with tx := outside.writes, log := [] } : Device σ).log = [] from rfl)
  rcases hblobs : writeBlobs os outside { (startState limits s tx rx).rt.dev with
    tx := outside.writes, log := [] } with ⟨ok, dev⟩
  rw [hblobs] at hsent hall
  dsimp only at hsent hall ⊢
  obtain ⟨st, hst⟩ : ∃ st : LoopState σ, st = { startState limits s tx rx with
      rt := { (startState limits s tx rx).rt with
        dev := { (startState limits s tx rx).rt.dev with proc := dev.proc } } } := ⟨_, rfl⟩
  have hpolling : st.Polling := by
    rw [hst]
    exact ⟨⟨hstart.pair, hstart.enabled, hstart.idle, hstart.tracked⟩, hstart.opened⟩
  have hstop : st.shouldStop = false := by
    rw [hst]
    rfl
  rw [← hst]
  constructor
  · exact hsent
  · exact fun hok => ⟨descriptorsBlob, stringsBlob, descriptorsBlob_describes, stringsBlob_names,
      hall hok⟩
  · intro hnone
    dsimp only at hnone ⊢
    refine ⟨?_, fd, by rw [hnone]; rfl⟩
    cases ok with
    | true => rfl
    | false =>
      rw [usbResponderRun_false] at hnone
      exact absurd hnone (Option.some_ne_none _)
  · intro hsome
    refine ⟨[fd], le_rfl, ?_⟩
    dsimp only at hsome ⊢
    rw [if_pos hsome]
    rfl
  · intro result hresult
    exact released_of_usbResponderRun os shell inputs hpolling hstop hresult
  · intro hok result hresult
    dsimp only at hok
    rw [hok, usbResponderRun_false] at hresult
    obtain rfl := Option.mem_some_iff.mp hresult
    rw [hst]
    rfl

/-- **The program.** For every command line, whatever the outside does: the program exits
with status 1, having called nothing, exactly when the arguments are not complete options
with a mount point among them. Otherwise it goes on or exits with status 2, never with 0:
`ep0` gets the descriptors and the strings, or a part of them, and nothing else; the loop is
entered when all of them were written; and at the exit `ep0` and each bulk endpoint were
closed as often as they were opened, and no upload session is left. -/
theorem main_lifecycle (args : List Bytes) (s : σ) (tx : List WriteOutcome) (rx : List RxOutcome) :
    let r := main os shell args outside inputs s tx rx
    (r.1 = some 1 ↔ r.2 = none) ∧
    (r.2 = none ↔ ¬∃ options : List CliOption, args = options.flatMap CliOption.args ∧
      options.filterMap CliOption.mount? ≠ []) ∧
    (r.1 = none ∨ r.1 = some 1 ∨ r.1 = some 2) ∧ ∀ run ∈ r.2, run.Orderly := by
  intro r
  have hr : r = main os shell args outside inputs s tx rx := rfl
  rw [main] at hr
  cases hparse : parseOptions os.ulongMax args {} with
  | none =>
    rw [hparse] at hr
    rw [hr]
    refine ⟨iff_of_true rfl rfl, iff_of_true rfl ?_, .inr (.inl rfl), by simp⟩
    rintro ⟨options, rfl, -⟩
    exact Option.some_ne_none _
      ((parseOptions_eq_some_iff.mpr ⟨options, rfl, rfl⟩).symm.trans hparse)
  | some cfg =>
    rw [hparse] at hr
    dsimp only at hr
    cases hmount : cfg.ffsMount with
    | none =>
      rw [hmount] at hr
      rw [hr]
      refine ⟨iff_of_true rfl rfl, iff_of_true rfl ?_, .inr (.inl rfl), by simp⟩
      rintro ⟨options, hargs, hmounts⟩
      have hcfg := Option.some.inj
        (hparse.symm.trans (parseOptions_eq_some_iff.mpr ⟨options, hargs, rfl⟩))
      rw [hcfg, ffsMount_foldl, Option.or_none, List.getLast?_eq_none_iff] at hmount
      exact hmounts hmount
    | some mount =>
      rw [hmount] at hr
      dsimp only at hr
      have horderly := run_orderly os shell outside inputs mount cfg.limits s tx rx
      obtain ⟨options, hargs, hcfg⟩ := parseOptions_eq_some_iff.mp hparse
      have hmounts : options.filterMap CliOption.mount? ≠ [] := by
        intro hnil
        rw [hcfg, ffsMount_foldl, hnil] at hmount
        simp at hmount
      -- the loop returns false, if it returns
      have hstatus : r.1 = none ∨ r.1 = some 2 := by
        rw [hr]
        cases hreturned : (run os shell outside mount inputs
          (startState cfg.limits s tx rx)).returned with
        | none => exact .inl rfl
        | some result =>
          refine .inr ?_
          dsimp only
          rw [Option.map_some, (horderly.released result hreturned).1]
          rfl
      refine ⟨iff_of_false ?_ ?_, iff_of_false ?_ (not_not.mpr ⟨options, hargs, hmounts⟩), ?_, ?_⟩
      · obtain hnone | htwo := hstatus
        · simp [hnone]
        · simp [htwo]
      · simp [hr]
      · simp [hr]
      · exact hstatus.imp id .inr
      · intro run hrun
        rw [hr] at hrun
        obtain rfl := Option.mem_some_iff.mp hrun
        exact horderly

end Run

end Program

end UsbResponder
