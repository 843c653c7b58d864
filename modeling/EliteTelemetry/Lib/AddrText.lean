/-
  EliteTelemetry.Lib.AddrText — the text of addresses and blocks, as Go's `net` writes them.

  An IPv4 address is four numbers with dots however it is stored, and no other address has
  such a text: there is a colon, a question mark or a bracket in it. So two addresses of which
  one is in IPv4 have the same text exactly if they are the same address (`ipString_eq_iff`).
-/

import EliteTelemetry.Lib.Cidr
import EliteTelemetry.Lib.Decimal

namespace EliteTelemetry.Lib.AddrText

open EliteTelemetry.Lib.NetAddr EliteTelemetry.Lib.Cidr EliteTelemetry.Lib.Decimal

/-! ## Texts -/

def hexString (ip : List UInt8) : Text := ip.flatMap fun b => [(b / 16).toNat.digitChar, (b % 16).toNat.digitChar]

def groups : List UInt8 → List Nat
  | hi :: lo :: rest => (hi.toNat * 256 + lo.toNat) :: groups rest
  | _ => []

/-- Where the first of the longest runs of two zeros or more begins and ends; 255 if there is none. -/
def zeroRun (gs : List Nat) : Nat × Nat :=
  (List.range 8).foldl
    (fun run i =>
      let j := i + ((gs.drop i).takeWhile (· = 0)).length
      if 2 ≤ j - i ∧ run.2 - run.1 < j - i then (i, j) else run)
    (255, 255)

def v6Text (ip : List UInt8) : Text :=
  let run := zeroRun (groups ip)
  let parts := (groups ip).map (Nat.toDigits 16)
  if run.1 < 8 then [':'].intercalate (parts.take run.1) ++ ':' :: ':' :: [':'].intercalate (parts.drop run.2)
  else [':'].intercalate parts

def ipString (ip : List UInt8) : String :=
  if ip = [] then "<nil>"
  else
    match to4 ip with
    | some ip4 => dotted (ip4.map (·.toNat))
    | none => String.ofList (if ip.length = 16 then v6Text ip else '?' :: hexString ip)

def ipNetString (net : IPNet) : String :=
  match net.numberAndMask with
  | none => "<nil>"
  | some (number, mask) =>
    match simpleMaskLength mask with
    | none => ipString number ++ "/" ++ String.ofList (hexString mask)
    | some ones => ipString number ++ "/" ++ decimal ones

example :
    ipString [0, 0, 0, 0, 0, 0, 0, 0, 0, 0, 255, 255, 10, 0, 0, 1] = "10.0.0.1" ∧
      ipString [0x20, 1, 0xd, 0xb8, 0, 0, 0, 0, 0, 1, 0, 0, 0, 0, 0, 1] = "2001:db8::1:0:0:1" ∧
      ipString (List.replicate 16 0) = "::" ∧ ipNetString ⟨[10, 0, 0, 0], [255, 0, 0, 0]⟩ = "10.0.0.0/8" ∧
      ipNetString ⟨[10, 0, 0, 0], [255, 0, 255, 0]⟩ = "10.0.0.0/ff00ff00" := by
  decide +kernel

/-! ## The text of an IPv4 address -/

theorem length_groups : ∀ {ip : List UInt8}, (groups ip).length = ip.length / 2
  | [] | [_] => by simp [groups]
  | hi :: lo :: rest => by
    simp only [groups, List.length_cons, length_groups]
    omega

theorem colon_mem_v6Text {ip : List UInt8} (hlen : ip.length = 16) : ':' ∈ v6Text ip := by
  unfold v6Text
  simp only
  split
  · simp
  · have hparts : ((groups ip).map (Nat.toDigits 16)).length = 8 := by simp [length_groups, hlen]
    match hp : (groups ip).map (Nat.toDigits 16) with
    | [] | [_] => rw [hp] at hparts; simp at hparts
    | a :: b :: rest => simp [List.intercalate_cons_cons]

theorem to4_of_length {ip : List UInt8} (h : ip.length = 4) : to4 ip = some ip := if_pos h

theorem length_to4 {ip ip4 : List UInt8} (h : to4 ip = some ip4) : ip4.length = 4 := by
  unfold to4 at h
  split at h
  · next hlen =>
    obtain rfl := Option.some.inj h
    exact hlen
  · split at h
    · next hlen =>
      obtain rfl := Option.some.inj h
      simp [hlen.1]
    · exact absurd h (by simp)

theorem ipString_of_to4 {ip ip4 : List UInt8} (h : to4 ip = some ip4) : ipString ip = dotted (ip4.map (·.toNat)) := by
  have hne : ip ≠ [] := by
    intro hip
    simp [hip, to4] at h
  rw [ipString, if_neg hne, h]

theorem ipString_ne_empty {ip ip4 : List UInt8} (h : to4 ip = some ip4) : ipString ip ≠ "" := by
  intro hempty
  rw [ipString_of_to4 h] at hempty
  have hlen := length_to4 h
  cases ip4 with
  | nil => simp at hlen
  | cons a rest =>
    cases rest with
    | nil => simp at hlen
    | cons b rest =>
      have hlist := congrArg String.toList hempty
      simp [dotted] at hlist

/-- The text of an address that is not in IPv4 has a character that no number with dots has. -/
theorem ipString_of_not_to4 {ip : List UInt8} (h : to4 ip = none) :
    ∃ c ∈ (ipString ip).toList, c.isDigit = false ∧ c ≠ '.' := by
  unfold ipString
  rw [h]
  split
  · exact ⟨'<', by decide, by decide, by decide⟩
  · simp only [String.toList_ofList]
    split
    · next hlen => exact ⟨':', colon_mem_v6Text hlen, by decide, by decide⟩
    · exact ⟨'?', by simp, by decide, by decide⟩

theorem ipString_eq_iff {ip a : List UInt8} (ha : a.length = 4) : ipString ip = ipString a ↔ to4 ip = some a := by
  rw [ipString_of_to4 (to4_of_length ha)]
  cases hip : to4 ip with
  | none =>
    obtain ⟨c, hc, hdigit, hdot⟩ := ipString_of_not_to4 hip
    refine ⟨fun h => ?_, fun h => absurd h (by simp)⟩
    rw [h] at hc
    rcases mem_dotted hc with hc | hc
    · exact absurd hc (by simp [hdigit])
    · exact absurd hc hdot
  | some ip4 =>
    rw [ipString_of_to4 hip, dotted_inj (by simp [length_to4 hip, ha]), Option.some.injEq]
    exact (List.map_injective_iff.mpr fun _ _ => UInt8.toNat_inj.mp).eq_iff

end EliteTelemetry.Lib.AddrText
