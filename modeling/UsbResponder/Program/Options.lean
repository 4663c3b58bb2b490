import UsbResponder.Responder.Loop

/-!
# The command line

The loop of `main` over its arguments. An option other than `-v` takes the next argument as
its value, whatever that is; as the last argument it is refused like an option that does not
exist.

`parseOptions_eq_some_iff` says which command lines are accepted: the complete options in
any order and number, where each overrides the ones before it (`CliOption.apply`).

A complete option is a value of its own, with the arguments it is written as and what it
sets, and an accepted command line is the concatenation of some. Numbers are read by
`strtoul` in base 10, so anything is a number, if only 0; a value out of the range of an
`unsigned long` saturates and is then cut to 32 bits. The text of the usage message, and
what `-v` switches on, are left out.
-/

namespace UsbResponder

open CString

/-! ### The source -/

/-- A decimal digit. -/
def isDecimal (b : UInt8) : Bool := 48 ≤ b && b ≤ 57

/-- `strtoul(s, NULL, 10)` on a target whose `unsigned long` ranges up to `ulongMax`: 0 when
no conversion takes place. A value out of range saturates; a minus sign negates in the
unsigned type. -/
def strtoul10 (ulongMax : ℕ) (s : Bytes) : ℕ :=
  let body := s.dropWhile isSpace
  let negative := body.head? = some 45
  let digits := if body.head? = some 45 ∨ body.head? = some 43 then body.tail else body
  let value := (digits.takeWhile isDecimal).foldl (fun acc d => 10 * acc + (d.toNat - 48)) 0
  if ulongMax < value then ulongMax
  else if negative then (ulongMax + 1 - value) % (ulongMax + 1)
  else value

example : strtoul10 (2 ^ 32 - 1) (utf8 " 8000ms") = 8000 := by decide

/-- `usb_responder_config_t`, without `verbose`. -/
structure MainConfig where
  ffsMount : Option Bytes := none
  limits : Config := ⟨0, 0, 0⟩
  deriving DecidableEq, Repr

/-- The loop of `main` over its arguments; `none` is a usage error. -/
def parseOptions (ulongMax : ℕ) : List Bytes → MainConfig → Option MainConfig
  | [], cfg => some cfg
  | [arg], cfg => if arg = utf8 "-v" ∨ arg = utf8 "--verbose" then some cfg else none
  | arg :: value :: args, cfg =>
    if arg = utf8 "--ffs" then parseOptions ulongMax args { cfg with ffsMount := some value }
    else if arg = utf8 "-v" ∨ arg = utf8 "--verbose" then parseOptions ulongMax (value :: args) cfg
    else if arg = utf8 "--timeout-ms" then
      parseOptions ulongMax args
        { cfg with limits.defaultTimeoutMs := UInt32.ofNat (strtoul10 ulongMax value) }
    else if arg = utf8 "--max-stdout" then
      parseOptions ulongMax args
        { cfg with limits.maxStdout := UInt32.ofNat (strtoul10 ulongMax value) }
    else if arg = utf8 "--max-stderr" then
      parseOptions ulongMax args
        { cfg with limits.maxStderr := UInt32.ofNat (strtoul10 ulongMax value) }
    else none

/-! ### What is accepted -/

/-- A complete option: its name, and its value if it takes one. -/
inductive CliOption
  | ffs (mount : Bytes)
  | verbose (short : Bool)
  | timeoutMs (value : Bytes)
  | maxStdout (value : Bytes)
  | maxStderr (value : Bytes)
  deriving DecidableEq, Repr

/-- The arguments of an option, as they stand on the command line. -/
def CliOption.args : CliOption → List Bytes
  | .ffs mount => [utf8 "--ffs", mount]
  | .verbose short => [if short then utf8 "-v" else utf8 "--verbose"]
  | .timeoutMs value => [utf8 "--timeout-ms", value]
  | .maxStdout value => [utf8 "--max-stdout", value]
  | .maxStderr value => [utf8 "--max-stderr", value]

/-- What an option sets. An option that is given again overwrites what it has set before. -/
def CliOption.apply (ulongMax : ℕ) (cfg : MainConfig) : CliOption → MainConfig
  | .ffs mount => { cfg with ffsMount := some mount }
  | .verbose _ => cfg
  | .timeoutMs value =>
    { cfg with limits.defaultTimeoutMs := UInt32.ofNat (strtoul10 ulongMax value) }
  | .maxStdout value => { cfg with limits.maxStdout := UInt32.ofNat (strtoul10 ulongMax value) }
  | .maxStderr value => { cfg with limits.maxStderr := UInt32.ofNat (strtoul10 ulongMax value) }

/-- An option in front of others is taken first. -/
private theorem parseOptions_args_append (ulongMax : ℕ) (option : CliOption) (args : List Bytes)
    (cfg : MainConfig) : parseOptions ulongMax (option.args ++ args) cfg =
      parseOptions ulongMax args (option.apply ulongMax cfg) := by
  cases option with
  | ffs mount => exact if_pos rfl
  | verbose short =>
    have hname : (if short then utf8 "-v" else utf8 "--verbose") = utf8 "-v" ∨
        (if short then utf8 "-v" else utf8 "--verbose") = utf8 "--verbose" := by
      cases short
      · exact .inr rfl
      · exact .inl rfl
    have hffs : (if short then utf8 "-v" else utf8 "--verbose") ≠ utf8 "--ffs" := by
      cases short <;> decide
    cases args with
    | nil => exact if_pos hname
    | cons value args => exact (if_neg hffs).trans (if_pos hname)
  | timeoutMs value => rfl
  | maxStdout value => rfl
  | maxStderr value => rfl

/-- The first option of an accepted command line, with what is behind it. The induction on
the arguments rests on this. -/
private theorem exists_option_of_parseOptions {ulongMax : ℕ} {arg : Bytes} {args : List Bytes}
    {cfg cfg' : MainConfig} (h : parseOptions ulongMax (arg :: args) cfg = some cfg') :
    ∃ (option : CliOption) (rest : List Bytes), arg :: args = option.args ++ rest := by
  by_cases hverbose : arg = utf8 "-v" ∨ arg = utf8 "--verbose"
  · obtain rfl | rfl := hverbose
    · exact ⟨.verbose true, args, rfl⟩
    · exact ⟨.verbose false, args, rfl⟩
  cases args with
  | nil =>
    rw [parseOptions, if_neg hverbose] at h
    simp at h
  | cons value rest =>
    rw [parseOptions] at h
    split_ifs at h with hffs htimeout hstdout hstderr
    · exact ⟨.ffs value, rest, by rw [hffs]; rfl⟩
    · exact ⟨.timeoutMs value, rest, by rw [htimeout]; rfl⟩
    · exact ⟨.maxStdout value, rest, by rw [hstdout]; rfl⟩
    · exact ⟨.maxStderr value, rest, by rw [hstderr]; rfl⟩

/-- An option has an argument at least. -/
private theorem CliOption.args_ne_nil (option : CliOption) : option.args ≠ [] := by
  cases option <;> exact List.cons_ne_nil _ _

/-- **Accepted command lines.** They are the complete options, each of which overrides the
ones before it. -/
theorem parseOptions_eq_some_iff {ulongMax : ℕ} {args : List Bytes} {cfg cfg' : MainConfig} :
    parseOptions ulongMax args cfg = some cfg' ↔
      ∃ options : List CliOption, args = options.flatMap CliOption.args ∧
        cfg' = options.foldl (CliOption.apply ulongMax) cfg := by
  constructor
  · intro h
    induction hlen : args.length using Nat.strong_induction_on generalizing args cfg with
    | _ n ih =>
      cases args with
      | nil => exact ⟨[], rfl, (Option.some.inj h).symm⟩
      | cons arg args =>
        obtain ⟨option, rest, hargs⟩ := exists_option_of_parseOptions h
        have hpos := List.length_pos_iff.mpr option.args_ne_nil
        rw [hargs, parseOptions_args_append] at h
        rw [hargs, List.length_append] at hlen
        obtain ⟨options, rfl, rfl⟩ := ih rest.length (by omega) h rfl
        exact ⟨option :: options, hargs, rfl⟩
  · rintro ⟨options, rfl, rfl⟩
    induction options generalizing cfg with
    | nil => rfl
    | cons option options ih =>
      rw [List.flatMap_cons, parseOptions_args_append, List.foldl_cons]
      exact ih

/-- The mount point that an option names; the others name none. -/
def CliOption.mount? : CliOption → Option Bytes
  | .ffs mount => some mount
  | _ => none

/-- The last mount point counts. -/
theorem ffsMount_foldl (ulongMax : ℕ) (options : List CliOption) (cfg : MainConfig) :
    (options.foldl (CliOption.apply ulongMax) cfg).ffsMount =
      (options.filterMap CliOption.mount?).getLast?.or cfg.ffsMount := by
  induction options generalizing cfg with
  | nil => rfl
  | cons option options ih =>
    rw [List.foldl_cons, ih]
    cases option with
    | ffs mount =>
      rw [List.filterMap_cons_some (show CliOption.mount? (.ffs mount) = some mount from rfl),
        List.getLast?_cons]
      cases (options.filterMap CliOption.mount?).getLast? with
      | none => rfl
      | some mount' => rfl
    | verbose short => rfl
    | timeoutMs value => rfl
    | maxStdout value => rfl
    | maxStderr value => rfl

end UsbResponder
