/-
  EliteTelemetry.Lib.LineScanner — `bufio.Scanner` over lines.

  A scan gives the lines one after another, each without its end and without one carriage return
  before it. What stands behind the last end is a line too, unless it is empty. A line that does not
  fit the buffer of 64 KiB stops the scan with an error. So a text written line by line, each
  line short enough, is scanned as it was written (`scan_written`).
-/

import Mathlib.Data.List.Basic

namespace EliteTelemetry.Lib.LineScanner

def newline : UInt8 := 10

def carriageReturn : UInt8 := 13

def maxScanTokenSize : Nat := 64 * 1024

def errTooLong : String := "bufio.Scanner: token too long"

def dropCR (line : List UInt8) : List UInt8 := if line.getLast? = some carriageReturn then line.dropLast else line

/-- The tokens of the pieces between line ends, and the error that stops them. -/
def tokens : List (List UInt8) → List (List UInt8) × Option String
  | [] => ([], none)
  | [last] =>
    if maxScanTokenSize ≤ last.length then ([], some errTooLong)
    else (if last = [] then [] else [dropCR last], none)
  | line :: rest =>
    if maxScanTokenSize ≤ line.length then ([], some errTooLong)
    else
      let after := tokens rest
      (dropCR line :: after.1, after.2)

def scan (content : List UInt8) : List (List UInt8) × Option String := tokens (content.splitOn newline)

def written (lines : List (List UInt8)) : List UInt8 := lines.flatMap (· ++ [newline])

def Scannable (line : List UInt8) : Prop := newline ∉ line ∧ line.length < maxScanTokenSize

theorem splitOn_written {lines : List (List UInt8)} (h : ∀ line ∈ lines, newline ∉ line) :
    (written lines).splitOn newline = lines ++ [[]] := by
  induction lines with
  | nil => rfl
  | cons line rest ih =>
    have hcons : written (line :: rest) = line ++ newline :: written rest := by simp [written]
    rw [hcons, List.splitOn_append_cons_self_of_not_mem (h line List.mem_cons_self),
      ih fun l hl => h l (List.mem_cons_of_mem _ hl), List.cons_append]

theorem scan_written {lines : List (List UInt8)} (h : ∀ line ∈ lines, Scannable line) :
    scan (written lines) = (lines.map dropCR, none) := by
  unfold scan
  rw [splitOn_written fun line hline => (h line hline).1]
  induction lines with
  | nil => rfl
  | cons line rest ih =>
    have hfits : ¬maxScanTokenSize ≤ line.length := Nat.not_le.mpr (h line List.mem_cons_self).2
    have hstep : tokens (line :: (rest ++ [[]])) =
        (dropCR line :: (tokens (rest ++ [[]])).1, (tokens (rest ++ [[]])).2) := by
      cases rest with
      | nil => simp [tokens, hfits]
      | cons next rest => simp [tokens, hfits]
    rw [List.cons_append, hstep, ih fun l hl => h l (List.mem_cons_of_mem _ hl), List.map_cons]

end EliteTelemetry.Lib.LineScanner
