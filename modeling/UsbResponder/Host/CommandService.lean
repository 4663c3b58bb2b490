import UsbResponder.Host.CommandCodec
import UsbResponder.Host.Exchange
import UsbResponder.Host.KeyValues
import UsbResponder.Host.ResponseSizes
import UsbResponder.Responder.History
import UsbResponder.Responder.ShellResults

/-!
# Running a command from the host

`command_exec` of the client, from the command line to the result it returns: the request is
decoded by the device, the command is run with the options of the request or else those of
the device, and the result comes back in chunks of any size. What the client returns is an
account of what the command did (`command_exec_accounts`), and the exit status of the
command line tool that of the command.

It is a composition: the request by the command codec, the run by `execShell_reports`, the
response by the codec again, and its way by `recvFrame_of_writeFrame`. Nothing about
commands is proved here for the first time but how the exit code becomes a status.

The single request is handed to the device without the receive loop, which makes no
difference to one request (`exchange_eq`). The command line has no NUL, and the result can
be received, that is, the two outputs are together below the client's limit for a payload.
-/

namespace UsbResponder

open LittleEndian CString ShellExec

variable {σ : Type}

/-! ### The client -/

namespace Host

/-- The request of `command_exec`, encoded. A negative number, or one that does not fit its
field, raises an exception before anything is sent. -/
def commandExecRequest (reqId : ℕ) (command : String) (timeoutMs maxStdout maxStderr : ℤ) :
    Except PyError Bytes := do
  let payload ← encodeCommandExec command timeoutMs maxStdout maxStderr
  Frame.encode { type := 20, requestId := reqId, payload := payload }

/-- What `command_exec` does with the frame it has received. -/
def expectCommandResult (reqId : ℕ) (fr : Frame) : Except ClientError CommandResult := do
  let payload ← checkResponse 21 "意外类型 " "COMMAND_RESULT" reqId fr
  (decodeCommandResult payload).mapError .codec

/-- What `command_exec` returns once its request is sent. -/
def Client.commandExecReply (reqId : ℕ) (c : Client) : Option (Except ClientError CommandResult) :=
  match c.recvFrame with
  | none => none
  | some (.error e, _) => some (.error (.codec e))
  | some (.ok fr, _) => some (expectCommandResult reqId fr)

/-- The exit status of the command line tool after `exec`. -/
def execStatus (r : CommandResult) : ℤ :=
  if r.exitCode < 0 ∨ 255 < r.exitCode then 1 else r.exitCode

end Host

/-! ### The device -/

/-- `usb_responder_exec_shell` as a function of the handlers, with at most `fuel` rounds of
its loop. A run that is longer counts as one that fails. -/
def ShellOs.exec (sos : ShellOs σ) (fuel : ℕ) : ExecShell σ := fun command options s =>
  match execShell sos fuel command options s with
  | some (true, t) => (some t.result, t.os)
  | some (false, t) => (none, t.os)
  | none => (none, s)

/-- `command_exec` of a client whose last request id was `req`. -/
def hostCommandExec (os : Os σ) (shell : ExecShell σ) (deliver : Bytes → List Bytes)
    (dev : Device σ) (req : ℕ) (command : String) (timeoutMs maxStdout maxStderr : ℤ) :
    Option (Except Host.ClientError Host.CommandResult) :=
  match Host.commandExecRequest (Host.nextId req) command timeoutMs maxStdout maxStderr with
  | .error e => some (.error (.codec e))
  | .ok raw => (exchange os shell deliver raw dev).bind
    (Host.Client.commandExecReply (Host.nextId req))

/-! ### The request -/

/-- The request is one frame, which the device decodes to the command and its numbers. -/
private theorem commandExecRequest_eq {reqId : ℕ} (hid : reqId < 2 ^ 32) {command : String}
    (timeoutMs maxStdout maxStderr : UInt32)
    (hlen : 16 + (utf8 command).length ≤ maxPayload) :
    ∃ raw frame, Host.commandExecRequest reqId command timeoutMs.toNat maxStdout.toNat
        maxStderr.toNat = .ok raw ∧ decodeFrame raw = some frame ∧
      frame.header.type = MsgType.commandExec.code ∧
      frame.header.requestId = UInt32.ofNat reqId ∧
      decodeCommandRequest frame.payload =
        some ⟨timeoutMs, maxStdout, maxStderr, utf8 command⟩ := by
  rw [maxPayload] at hlen
  obtain ⟨payload, hencode, hdecode⟩ := decodeCommandRequest_encodeCommandExec command timeoutMs
    maxStdout maxStderr (by omega)
  have hpayload : payload.length = 16 + (utf8 command).length := by
    have hu32 : ∀ v : UInt32, (0 : ℤ) ≤ v.toNat ∧ (v.toNat : ℤ) < 2 ^ 32 := fun v =>
      ⟨Int.natCast_nonneg _, by exact_mod_cast v.toNat_lt⟩
    rw [Host.encodeCommandExec, if_pos ⟨hu32 _, hu32 _, hu32 _, by omega⟩] at hencode
    obtain rfl := Except.ok.inj hencode
    simp only [List.length_append, length_leBytes]
  have hwire := Host.Frame.encode_eq_wire (f := ⟨20, reqId, 0, payload⟩) (by norm_num)
    (by norm_num) hid (show payload.length < 2 ^ 32 by omega)
  have hofNat : (UInt32.ofNat reqId).toNat = reqId := by
    rw [UInt32.toNat_ofNat', Nat.mod_eq_of_lt hid]
  have hframe : decodeFrame (wire MsgType.commandExec.code.toNat (0 : UInt32).toNat
      (UInt32.ofNat reqId).toNat payload) =
        some (frameOf MsgType.commandExec.code 0 (UInt32.ofNat reqId) payload) :=
    decodeFrame_wire (by omega)
  rw [hofNat] at hframe
  refine ⟨wire 20 0 reqId payload, _, ?_, hframe, rfl, rfl, hdecode⟩
  rw [Host.commandExecRequest, hencode]
  exact hwire

/-! ### The response -/

/-- An error response is raised with its message. -/
private theorem checkResponse_errorReport (expected : ℕ) (unexpected expectedName : String)
    {reqId : UInt32} {msg : String} (hnul : 0 ∉ utf8 msg) (hlen : (utf8 msg).length < 2 ^ 16) :
    Host.checkResponse expected unexpected expectedName reqId.toNat
      (Host.Frame.ofDevice (errorReport reqId (utf8 msg))) = .error (.runtimeError msg) := by
  have hkey : 0 ∉ utf8 "message" ∧ (utf8 "message").length < 2 ^ 16 := by decide
  have hkept : Kv.kept ⟨utf8 "message", utf8 msg⟩ = ⟨utf8 "message", utf8 msg⟩ :=
    Kv.kept_eq_self hkey ⟨hnul, hlen⟩
  have hpayload : (errorReport reqId (utf8 msg)).payload =
      kvLayout [⟨utf8 "message", utf8 msg⟩] := by
    have hencode : encodeKv [⟨utf8 "message", utf8 msg⟩] =
        some (kvLayout [⟨utf8 "message", utf8 msg⟩]) := by
      rw [encodeKv_eq_kvLayout_kept (by simp [maxKv]), List.map_singleton, hkept]
    rw [encodeKv, if_neg (by simp [maxKv]), List.flatMap_singleton] at hencode
    exact Option.some.inj hencode
  have hdecode : Host.decodeKv (Host.Frame.ofDevice (errorReport reqId (utf8 msg))).payload =
      .ok [("message", msg)] := by
    have hfits : ∀ item ∈ [(⟨utf8 "message", utf8 msg⟩ : Kv)], item.Fits := by
      intro item hitem
      rw [List.mem_singleton.mp hitem, ← hkept]
      exact Kv.kept_fits _
    rw [show (Host.Frame.ofDevice (errorReport reqId (utf8 msg))).payload = _ from hpayload,
      Host.decodeKv_kvLayout hfits (by simp [maxKv])]
    exact Host.assignItems_eq_ok_iff.mpr ⟨[("message", msg)], rfl, rfl⟩
  have hid : (Host.Frame.ofDevice (errorReport reqId (utf8 msg))).requestId = reqId.toNat := rfl
  have htype : (Host.Frame.ofDevice (errorReport reqId (utf8 msg))).type = 3 := rfl
  rw [Host.checkResponse, if_neg (not_not.mpr hid), if_pos htype, hdecode]
  rfl

/-- An error response of the device can be received. -/
private theorem errorReport_sendable (reqId : UInt32) (msg : Bytes) :
    (errorReport reqId msg).Sendable := by
  have hsmall : (writeLe16 1 ++ encodeKvRecord ⟨utf8 "message", msg⟩).length ≤ 2 ^ 18 := by
    have hrecord := length_flatMap_encodeKvRecord_le [⟨utf8 "message", msg⟩]
    rw [List.flatMap_singleton, List.length_singleton] at hrecord
    rw [List.length_append, length_writeLe16]
    omega
  constructor
  · show (UInt32.ofNat _).toNat = _
    exact UInt32.toNat_ofNat_of_lt' (hsmall.trans_lt (by norm_num [UInt32.size]))
  · show (writeLe16 1 ++ encodeKvRecord ⟨utf8 "message", msg⟩).length ≤ Host.maxPayload
    exact hsmall.trans (by norm_num [Host.maxPayload])

/-- The response with the result of a command, with the two texts as they were captured. -/
def resultFrame (reqId : UInt32) (r : ShellExecResult) : Frame :=
  responseFrame .commandResult reqId (encodeCommandResult
    { exitCode := r.exitCode, timedOut := r.timedOut, durationMs := r.durationMs
      stdoutData := r.stdoutData, stderrData := r.stderrData })

/-- What the client reads of a result. -/
def Host.CommandResult.ofShell (r : ShellExecResult) : Host.CommandResult where
  exitCode := r.exitCode.toInt
  timedOut := r.timedOut
  durationMs := r.durationMs.toNat
  stdout := r.stdoutData
  stderr := r.stderrData

section Response

variable (reqId : UInt32) {r : ShellExecResult}
  (hfits : 20 + r.stdoutData.length + r.stderrData.length ≤ Host.maxPayload)

include hfits

private theorem resultFrame_sendable : (resultFrame reqId r).Sendable := by
  rw [Host.maxPayload] at hfits
  have hlength : (resultFrame reqId r).payload.length =
      20 + r.stdoutData.length + r.stderrData.length := length_encodeCommandResult _
  constructor
  · rw [hlength]
    show (UInt32.ofNat (resultFrame reqId r).payload.length).toNat = _
    rw [hlength]
    exact UInt32.toNat_ofNat_of_lt' (hfits.trans_lt (by norm_num [UInt32.size]))
  · rw [hlength]
    exact hfits

private theorem expectCommandResult_resultFrame :
    Host.expectCommandResult reqId.toNat (Host.Frame.ofDevice (resultFrame reqId r)) =
      .ok (.ofShell r) := by
  rw [Host.maxPayload] at hfits
  have hcheck : Host.checkResponse 21 "意外类型 " "COMMAND_RESULT" reqId.toNat
      (Host.Frame.ofDevice (resultFrame reqId r)) = .ok (resultFrame reqId r).payload := by
    have hid : (Host.Frame.ofDevice (resultFrame reqId r)).requestId = reqId.toNat := rfl
    have htype : (Host.Frame.ofDevice (resultFrame reqId r)).type = 21 := rfl
    rw [Host.checkResponse, if_neg (not_not.mpr hid), if_neg (by omega), if_neg (not_not.mpr htype)]
    rfl
  have hdecode := hostDecodeCommandResult_encodeCommandResult
    { exitCode := r.exitCode, timedOut := r.timedOut, durationMs := r.durationMs
      stdoutData := r.stdoutData, stderrData := r.stderrData }
    (show r.stdoutData.length < 2 ^ 32 by omega) (show r.stderrData.length < 2 ^ 32 by omega)
  rw [Host.expectCommandResult, hcheck]
  exact congrArg (Except.mapError _) hdecode

end Response

/-! ### The exchange -/

section Exchange

variable (os : Os σ) {shell : ExecShell σ} {deliver : Bytes → List Bytes} {dev : Device σ}
  (req : ℕ) {command : String} (timeoutMs maxStdout maxStderr : UInt32)

/-- The response to a command that was run, or the error where the shell could not be
started. -/
def commandResponse (reqId : UInt32) : Option ShellExecResult → Frame
  | none => errorReport reqId (utf8 "shell exec failed")
  | some r => resultFrame reqId r

/-- What the client returns or raises when the command was run. A run that failed is raised
as the error of the device. -/
def commandReply : Option ShellExecResult → Except Host.ClientError Host.CommandResult
  | none => .error (.runtimeError "shell exec failed")
  | some r => .ok (.ofShell r)

/-- The device runs the command with the options of the request, and what it sends is what
the client receives. -/
private theorem hostCommandExec_eq (hdeliver : ∀ bs, (deliver bs).flatten = bs)
    (hwrites : dev.Benign)
    (hnul : 0 ∉ utf8 command) (hlen : 16 + (utf8 command).length ≤ maxPayload)
    {found : Option ShellExecResult} {s : σ}
    (hshell : shell (utf8 command) (execOptions dev.cfg
      ⟨timeoutMs, maxStdout, maxStderr, utf8 command⟩) dev.proc.os = (found, s))
    (hfits : ∀ r ∈ found, 20 + r.stdoutData.length + r.stderrData.length ≤ Host.maxPayload) :
    hostCommandExec os shell deliver dev req command timeoutMs.toNat maxStdout.toNat
      maxStderr.toNat = some (commandReply found) := by
  obtain ⟨raw, frame, hraw, hdecode, htype, hid, hreq⟩ :=
    commandExecRequest_eq (Host.nextId_lt req) timeoutMs maxStdout maxStderr hlen
  obtain ⟨reqId, hreqId⟩ : ∃ reqId : UInt32, reqId = UInt32.ofNat (Host.nextId req) := ⟨_, rfl⟩
  have hnext : Host.nextId req = reqId.toNat := by
    rw [hreqId, UInt32.toNat_ofNat', Nat.mod_eq_of_lt (Host.nextId_lt req)]
  -- the response that the device sends
  obtain ⟨resp, hresp⟩ : ∃ resp, resp = commandResponse reqId found := ⟨_, rfl⟩
  have hhandle : handleFrame os shell frame dev =
      writeFrame os resp { dev with proc.os := s } := by
    have hexec : handleFrame os shell frame dev = handleCommandExec os shell frame dev := by
      rw [handleFrame, MsgType.ofCode_eq_some_iff.mpr htype.symm]
    have hopt : (⟨orDefault timeoutMs dev.cfg.defaultTimeoutMs,
        orDefault maxStdout dev.cfg.maxStdout, orDefault maxStderr dev.cfg.maxStderr⟩ :
          ShellExecOptions) =
            execOptions dev.cfg ⟨timeoutMs, maxStdout, maxStderr, utf8 command⟩ := rfl
    rw [hexec, handleCommandExec, hreq]
    dsimp only
    rw [hopt, cStr_eq_self hnul, hshell, hid, ← hreqId, hresp]
    rcases found with _ | r
    · exact sendError_eq_report ..
    · dsimp only
      rw [Host.maxPayload] at hfits
      rw [if_neg]
      · rfl
      · rw [length_encodeCommandResult, not_le, UInt32.size]
        exact (hfits r rfl).trans_lt (by norm_num)
  have hsendable : resp.Sendable := by
    rw [hresp]
    rcases found with _ | r
    · exact errorReport_sendable reqId _
    · exact resultFrame_sendable reqId (hfits r rfl)
  obtain ⟨c, hrecv⟩ := recvFrame_of_writeFrame os hdeliver dev
    (show ({ dev with proc.os := s } : Device σ).Benign from hwrites) rfl hsendable
  rw [hostCommandExec, hraw]
  dsimp only
  rw [exchange, hdecode, Option.map_some, Option.bind_some]
  dsimp only
  rw [hhandle, Host.Client.commandExecReply, hrecv, hnext]
  dsimp only
  rw [hresp]
  rcases found with _ | r
  · rw [Host.expectCommandResult, commandResponse,
      checkResponse_errorReport 21 _ _ (by decide) (by decide)]
    rfl
  · exact congrArg some (expectCommandResult_resultFrame reqId (hfits r rfl))

end Exchange

/-! ### What the client is told -/

namespace Host

/-- A result tells what is in the log of a command whose output is in two pipes: their bytes
up to the limits, the code of the one status, and whether a signal was sent. A command that
has exited gives its status to the command line tool. -/
structure CommandResult.Accounts (options : ShellExecOptions) (out err : ℤ)
    (log : List ShellEvent) (r : CommandResult) : Prop where
  stdout_eq : r.stdout = (delivered out log).take options.maxStdout.toNat
  stderr_eq : r.stderr = (delivered err log).take options.maxStderr.toNat
  exitCode_eq : ∃ status, statuses log = [status] ∧ r.exitCode = (exitCodeOf status (-1)).toInt
  execStatus_eq : ∀ code, statuses log = [.exited code] → execStatus r = code.toNat
  timedOut_iff : r.timedOut = true ↔ signals log ≠ []

/-- The code of an exit is a number of eight bits. -/
private theorem toInt_exitCodeOf_exited (code : UInt8) :
    (exitCodeOf (.exited code) (-1)).toInt = code.toNat := by
  have hlt := code.toNat_lt
  rw [exitCodeOf, Int32.toInt_ofNat_of_lt (by omega)]

private theorem CommandResult.accounts_ofShell {options : ShellExecOptions} {out err : ℤ}
    {log : List ShellEvent} {r : ShellExecResult} (h : Reports options out err log r) :
    CommandResult.Accounts options out err log (.ofShell r) := by
  obtain ⟨status, hstatus, hcode⟩ := h.exitCode_eq
  have hexit : (CommandResult.ofShell r).exitCode = (exitCodeOf status (-1)).toInt :=
    congrArg Int32.toInt hcode
  refine ⟨h.stdout_eq, h.stderr_eq, ⟨status, hstatus, hexit⟩, fun code hexited => ?_,
    h.timedOut_iff⟩
  obtain rfl : status = .exited code := by simpa [hstatus] using hexited
  have hlt := code.toNat_lt
  rw [execStatus, hexit, toInt_exitCodeOf_exited, if_neg (by omega)]

end Host

/-- **Commands.** For every schedule of the outside in which the run of the command ends:
when it returns `true` and the result can be received, the client returns an account of the
run, in which the two pipes were read to their end; when it returns `false`, the client
raises an error. -/
theorem command_exec_accounts (os : Os σ) {sos : ShellOs σ} (hpipes : sos.FreshPipes) (fuel : ℕ)
    {deliver : Bytes → List Bytes} (hdeliver : ∀ bs, (deliver bs).flatten = bs) {dev : Device σ}
    (hwrites : dev.Benign) (req : ℕ) {command : String} (hnul : 0 ∉ utf8 command)
    (hlen : 16 + (utf8 command).length ≤ maxPayload) (timeoutMs maxStdout maxStderr : UInt32)
    {ok : Bool} {t : ShellExec σ} (hrun : execShell sos fuel (utf8 command) (execOptions dev.cfg
      ⟨timeoutMs, maxStdout, maxStderr, utf8 command⟩) dev.proc.os = some (ok, t))
    (hfits : ok = true →
      20 + t.result.stdoutData.length + t.result.stderrData.length ≤ Host.maxPayload) :
    let options := execOptions dev.cfg ⟨timeoutMs, maxStdout, maxStderr, utf8 command⟩
    let answer := hostCommandExec os (sos.exec fuel) deliver dev req command timeoutMs.toNat
      maxStdout.toNat maxStderr.toNat
    if ok then ∃ (out err : ℤ × ℤ) (r : Host.CommandResult), answer = some (.ok r) ∧
      [.piped out.1 out.2, .piped err.1 err.2] <+: t.log ∧ AtEof out.1 t.log ∧ AtEof err.1 t.log ∧
      r.Accounts options out.1 err.1 t.log
    else answer = some (.error (.runtimeError "shell exec failed")) := by
  intro options answer
  rcases ok with _ | _
  · have hshell : sos.exec fuel (utf8 command) options dev.proc.os = (none, t.os) := by
      rw [ShellOs.exec, hrun]
    rw [if_neg (by simp)]
    exact hostCommandExec_eq os req timeoutMs maxStdout maxStderr hdeliver hwrites hnul hlen hshell
      (by simp)
  · have hshell : sos.exec fuel (utf8 command) options dev.proc.os = (some t.result, t.os) := by
      rw [ShellOs.exec, hrun]
    obtain ⟨out, err, hpiped, hout, herr, hreports⟩ := execShell_reports hpipes hrun
    rw [if_pos rfl]
    refine ⟨out, err, .ofShell t.result, ?_, hpiped, hout, herr,
      Host.CommandResult.accounts_ofShell hreports⟩
    exact hostCommandExec_eq os req timeoutMs maxStdout maxStderr hdeliver hwrites hnul hlen hshell
      (fun r hr => Option.some.inj hr ▸ hfits rfl)

/-- A device on which the command has written `hi` and then sleeps. -/
def sleeperDevice : Device Sleeper :=
  ⟨⟨8000, 65536, 65536⟩, ⟨fileOpsInit, [], ⟨0, 3, [104, 105], false⟩⟩, [], []⟩

/-- A command that is killed, with its first byte within the limit. -/
theorem command_exec_accounts_sleeper :
    ∃ r, hostCommandExec (Os.failing Sleeper) (ShellOs.sleeper.exec 5) (fun bs => [bs])
        sleeperDevice 0 "sleep 9" 50 1 0 = some (.ok r) ∧
      r.stdout.length ≤ 1 ∧ (r.timedOut = true → r.exitCode = 143) := by
  have hcfg : execOptions sleeperDevice.cfg ⟨50, 1, 0, utf8 "sleep 9"⟩ = ⟨50, 1, 65536⟩ := by
    decide
  obtain ⟨t, ht, hcheck⟩ := @exists_of_execShell_any _ .sleeper 5 (utf8 "sleep 9") ⟨50, 1, 65536⟩
    ⟨0, 3, [104, 105], false⟩
    (fun t => 20 + t.result.stdoutData.length + t.result.stderrData.length ≤ Host.maxPayload ∧
      statuses t.log = [.signaled 15]) (by decide +kernel)
  obtain ⟨hfits, hstatuses⟩ := of_decide_eq_true hcheck
  obtain ⟨out, err, r, hanswer, -, -, -, haccounts⟩ := @command_exec_accounts _
    (Os.failing Sleeper) _ freshPipes_sleeper 5 (fun bs => [bs]) (by simp) sleeperDevice
    (by simp [Device.Benign, sleeperDevice]) 0 "sleep 9" (by decide) (by decide) 50 1 0 _ _
    (hcfg ▸ ht) fun _ => hfits
  refine ⟨r, hanswer, ?_, fun _ => ?_⟩
  · rw [haccounts.stdout_eq, hcfg]
    exact List.length_take_le _ _
  · obtain ⟨status, hstatus, hcode⟩ := haccounts.exitCode_eq
    obtain rfl : status = .signaled 15 := by simpa [hstatuses] using hstatus.symm
    rw [hcode]
    decide

end UsbResponder
