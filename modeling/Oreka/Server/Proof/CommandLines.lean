import Oreka.Server.MultiThreadedServer

/-!
# No command line is executed

The test for invalid characters comes before the one for the line's end, and takes every carriage return
and line feed for invalid: no scan of a read finds the end of a line (`scan_ne_foundCRLF`), and so no command
is executed on any stream, however it is cut (`commands_routineSvc`).
-/

namespace Oreka.Server

open Capture (Socket)

/-- How a command line ends. -/
inductive Terminator
  | cr
  | lf
  | crlf
  deriving DecidableEq, Repr

def Terminator.bytes : Terminator → List UInt8
  | .cr => [13]
  | .lf => [10]
  | .crlf => [13, 10]

/-- A printable command line that is shorter than the buffer. -/
structure CommandLine where
  text : List UInt8
  terminator : Terminator
  printable : ∀ c ∈ text, 32 ≤ c ∧ c ≤ 126
  short : text.length < bufSize

/-- Command lines as they are sent. -/
def wire (lines : List CommandLine) : List UInt8 := lines.flatMap fun l => l.text ++ l.terminator.bytes

/-- The server executes these command lines, each once and in order, and does not close the connection
before it has, wherever the stream is cut. -/
def Serves (respond : List UInt8 → List UInt8) (prompts : List Bool) (lines : List CommandLine) : Prop :=
  ∀ sock : Socket, sock.WellCut → sock.stream = wire lines →
    commands (routineSvc respond prompts sock) = lines.map (·.text) ∧
      ∀ before after, routineSvc respond prompts sock = before ++ .close :: after →
        commands before = lines.map (·.text)

/-! ## The scan -/

theorem scan_ne_foundCRLF (buf bytes command : List UInt8) : scan buf bytes ≠ .foundCRLF command := by
  induction bytes generalizing buf with
  | nil => nofun
  | cons c bytes ih =>
    unfold scan
    split
    · nofun
    · rename_i hvalid
      have hend : ¬ (c = 13 ∨ c = 10) := by
        rintro (rfl | rfl)
        · exact hvalid (.inl (by decide))
        · exact hvalid (.inl (by decide))
      rw [if_neg hend]
      exact ih _

theorem getCommandLine_ne_command (sock : Socket) (buf command : List UInt8) :
    (getCommandLine sock buf).1 ≠ .command command := by
  fun_induction getCommandLine sock buf with
  | case1 sock buf _ h buf' hscan ih => exact ih
  | case2 => simp
  | case3 sock buf _ h command' hscan => exact absurd hscan (scan_ne_foundCRLF _ _ _)
  | case4 => simp
  | case5 => simp

/-- No command is executed on any connection. -/
theorem commands_routineSvc (respond : List UInt8 → List UInt8) (prompts : List Bool) (sock : Socket) :
    commands (routineSvc respond prompts sock) = [] := by
  induction hn : sock.stream.length using Nat.strongRecOn generalizing prompts sock with
  | _ n ih =>
    rw [routineSvc]
    have hlt := getCommandLine_lt sock [] (by decide)
    have hne := getCommandLine_ne_command sock []
    split
    · split
      · rename_i sock' hline
        rw [hline] at hlt
        exact ih _ (hn ▸ hlt.resolve_left (by simp)) _ _ rfl
      · rfl
      · rfl
      · rename_i command sock' hline
        rw [hline] at hne
        exact absurd rfl (hne command)
    · rfl

/-! ## The server -/

/-- Each stream comes in some reads. -/
theorem exists_socket (bytes : List UInt8) : ∃ sock : Socket, sock.WellCut ∧ sock.stream = bytes := by
  by_cases h : bytes = []
  · exact ⟨⟨[], .closed⟩, nofun, h.symm⟩
  · exact ⟨⟨[bytes], .closed⟩, by simpa [Socket.WellCut] using h, by simp [Socket.stream]⟩

theorem Serves.eq_nil {respond : List UInt8 → List UInt8} {prompts : List Bool} {lines : List CommandLine}
    (h : Serves respond prompts lines) : lines = [] := by
  obtain ⟨sock, hcut, hstream⟩ := exists_socket (wire lines)
  have hcommands := (h sock hcut hstream).1
  rw [commands_routineSvc] at hcommands
  exact List.map_eq_nil_iff.1 hcommands.symm

/-- **The server serves no command line**: it does what it is for only where there is nothing to do. -/
theorem serves_iff (respond : List UInt8 → List UInt8) (prompts : List Bool) (lines : List CommandLine) :
    Serves respond prompts lines ↔ lines = [] := by
  refine ⟨Serves.eq_nil, ?_⟩
  rintro rfl sock - -
  refine ⟨commands_routineSvc respond prompts sock, fun before after hlog => ?_⟩
  have hall := commands_routineSvc respond prompts sock
  rw [hlog, commands, List.filterMap_append, List.append_eq_nil_iff] at hall
  exact hall.1

/-- `ping` and a line feed. -/
def ping : CommandLine := ⟨[112, 105, 110, 103], .lf, by decide +kernel, by decide +kernel⟩

theorem not_serves_ping : ¬ Serves (fun _ => []) [] [ping] := fun h => List.cons_ne_nil _ _ h.eq_nil

end Oreka.Server
