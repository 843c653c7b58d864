/-
  EliteTelemetry.Lib.Decimal — numbers in decimal, alone and with separators.

  `decimal` is what `%d` prints for a natural number. Different numbers have different texts
  (`decimal_inj`), and since no digit is a dot, so have different sequences of numbers with
  dots between them (`dotted_inj`).
-/

import Mathlib.Data.List.Basic

namespace EliteTelemetry.Lib.Decimal

def decimal (n : Nat) : String := n.repr

theorem decimal_inj {m n : Nat} : decimal m = decimal n ↔ m = n := by
  constructor
  · intro h
    have hdigits : Nat.toDigits 10 m = Nat.toDigits 10 n := by
      rw [← Nat.toList_repr, ← Nat.toList_repr]
      exact congrArg String.toList h
    have hvalue := congrArg (fun digits => Nat.ofDigitChars 10 digits 0) hdigits
    simpa using hvalue
  · intro h
    rw [h]

theorem isDigit_of_mem_decimal {n : Nat} {c : Char} (h : c ∈ (decimal n).toList) : c.isDigit = true := by
  rw [decimal, Nat.toList_repr] at h
  exact Nat.isDigit_of_mem_toDigits (by decide) (by decide) h

theorem dot_not_mem_decimal (n : Nat) : '.' ∉ (decimal n).toList := by
  intro h
  exact absurd (isDigit_of_mem_decimal h) (by decide)

theorem append_cons_inj {α : Type} {a : α} {xs ys us vs : List α} (hx : a ∉ xs) (hy : a ∉ ys)
    (h : xs ++ a :: us = ys ++ a :: vs) : xs = ys ∧ us = vs := by
  induction xs generalizing ys with
  | nil =>
    cases ys with
    | nil => exact ⟨rfl, (List.cons.inj h).2⟩
    | cons y ys => exact absurd (List.cons.inj h).1 fun hay => hy (by simp [hay])
  | cons x xs ih =>
    cases ys with
    | nil => exact absurd (List.cons.inj h).1 fun hxa => hx (by simp [hxa])
    | cons y ys =>
      obtain ⟨hxy, hrest⟩ := List.cons.inj h
      obtain ⟨hparts, htails⟩ := ih (fun hm => hx (by simp [hm])) (fun hm => hy (by simp [hm])) hrest
      exact ⟨by rw [hxy, hparts], htails⟩

theorem append_cons_inj_last {α : Type} {a : α} {xs ys us vs : List α} (hu : a ∉ us) (hv : a ∉ vs)
    (h : xs ++ a :: us = ys ++ a :: vs) : xs = ys ∧ us = vs := by
  have hreverse := congrArg List.reverse h
  simp only [List.reverse_append, List.reverse_cons, List.append_assoc, List.singleton_append] at hreverse
  obtain ⟨hus, hxs⟩ := append_cons_inj (by simpa using hu) (by simpa using hv) hreverse
  exact ⟨List.reverse_inj.mp hxs, List.reverse_inj.mp hus⟩

def dotted : List Nat → String
  | [] => ""
  | [n] => decimal n
  | n :: ns => decimal n ++ "." ++ dotted ns

theorem dotted_inj {ms ns : List Nat} (hlen : ms.length = ns.length) : dotted ms = dotted ns ↔ ms = ns := by
  constructor
  · intro h
    induction ms generalizing ns with
    | nil => exact (List.length_eq_zero_iff.mp hlen.symm).symm
    | cons m ms ih =>
      cases ns with
      | nil => exact absurd hlen (by simp)
      | cons n ns =>
        cases ms with
        | nil =>
          obtain rfl : ns = [] := List.length_eq_zero_iff.mp (by simpa using hlen.symm)
          rw [decimal_inj.mp h]
        | cons m' ms =>
          cases ns with
          | nil => exact absurd hlen (by simp)
          | cons n' ns =>
            have hlist := congrArg String.toList h
            simp only [dotted, String.toList_append, List.append_assoc] at hlist
            obtain ⟨hhead, htail⟩ := append_cons_inj (dot_not_mem_decimal m) (dot_not_mem_decimal n) hlist
            rw [decimal_inj.mp (String.toList_inj.mp hhead), ih (by simpa using hlen) (String.toList_inj.mp htail)]
  · intro h
    rw [h]

theorem mem_dotted {ns : List Nat} {c : Char} (h : c ∈ (dotted ns).toList) : c.isDigit = true ∨ c = '.' := by
  induction ns with
  | nil => simp [dotted] at h
  | cons n ns ih =>
    cases ns with
    | nil => exact .inl (isDigit_of_mem_decimal h)
    | cons m ns =>
      simp only [dotted, String.toList_append, List.mem_append] at h
      rcases h with (h | h) | h
      · exact .inl (isDigit_of_mem_decimal h)
      · exact .inr (by simpa using h)
      · exact ih h

end EliteTelemetry.Lib.Decimal
