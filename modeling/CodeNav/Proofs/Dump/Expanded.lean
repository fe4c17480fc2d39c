/-
Module: CodeNav.Proofs.Dump.Expanded
Purpose: What a limit changes about compressed dumps: nothing, unless more than that comes out.
Main exports:
  Gzip.expanded, Gzip.decompress_within, Gzip.decompress_beyond, Dump.parse_eq_unlimited,
  Dump.parse_beyond, Dump.expanded_of_parse
-/
import CodeNav.Proofs.Store.Contents
import CodeNav.Proofs.Success

namespace CodeNav

open Success

namespace Gzip

/-! ### Members -/

/-- What comes out of the first member, as far as that can be read, whatever follows it. -/
def expanded (octets : List UInt8) : List UInt8 :=
  match skipHeader octets with
  | .ok s => (inflate s).output.toList
  | .error _ => []

theorem expanded_of_header {octets s : List UInt8} (header : skipHeader octets = .ok s) :
    expanded octets = (inflate s).output.toList := by
  unfold expanded
  rw [header]

theorem checkTrailer_ok {content rest : List UInt8} {outcome : Outcome}
    (checked : checkTrailer content rest = .ok outcome) : outcome = .content content := by
  unfold checkTrailer at checked
  obtain ⟨_, _, checked⟩ := bind_eq_ok.mp checked
  obtain ⟨_, _, checked⟩ := bind_eq_ok.mp checked
  dsimp only at checked
  split at checked
  · cases checked
    rfl
  · cases checked

/-- Without a limit, a member that can be read has all as its content that comes out of it. -/
theorem eq_content_expanded {octets : List UInt8} {outcome : Outcome}
    (read : decompress none octets = .ok outcome) : outcome = .content (expanded octets) := by
  unfold decompress at read
  obtain ⟨s, header, read⟩ := bind_eq_ok.mp read
  rw [expanded_of_header header]
  dsimp only at read
  split at read
  · cases read
  · cases read
  · exact checkTrailer_ok read

/-- A limit changes nothing if no more than that comes out, whether the member is sound or not. -/
theorem decompress_within {octets : List UInt8} {limit : Nat}
    (within : (expanded octets).length ≤ limit) :
    decompress (some limit) octets = decompress none octets := by
  unfold decompress
  cases header : skipHeader octets with
  | error fault => rfl
  | ok s =>
      have produced : (inflate s).output.size ≤ limit := by
        simpa [expanded_of_header header] using within
      have seen : isSeen (inflate s).output.size (some limit) = true :=
        decide_eq_true (Nat.le_trans (Nat.mul_div_le _ portion) produced)
      have fits : exceeds (inflate s).output.size (some limit) = false :=
        decide_eq_false (Nat.not_lt.mpr produced)
      rw [ok_bind, ok_bind]
      dsimp only
      rw [seen, fits]
      rfl

/-- If more than the limit comes out, the member is not read to its end: either the limit or some
damage is met first. -/
theorem decompress_beyond {octets : List UInt8} {limit : Nat}
    (beyond : limit < (expanded octets).length) :
    decompress (some limit) octets = .ok .exceeded ∨
      decompress (some limit) octets = .error .corrupt := by
  cases header : skipHeader octets with
  | error fault =>
      unfold expanded at beyond
      rw [header] at beyond
      exact absurd beyond (Nat.not_lt_zero limit)
  | ok s =>
      have exceeded : exceeds (inflate s).output.size (some limit) = true :=
        decide_eq_true (by simpa [expanded_of_header header] using beyond)
      unfold decompress
      rw [header, ok_bind]
      dsimp only
      rw [exceeded]
      split
      · split
        · exact .inr rfl
        · exact .inl rfl
      · exact .inl rfl
      · exact .inl rfl

end Gzip

namespace Dump

/-! ### Dumps -/

theorem parse_eq_unlimited {octets : List UInt8} {limit : Nat}
    (within : Gzip.isGzip octets → (Gzip.expanded octets).length ≤ limit) :
    parse (some limit) octets = parse none octets := by
  have same : inflate (some limit) octets = inflate none octets := by
    unfold inflate
    cases compressed : Gzip.isGzip octets with
    | false => rfl
    | true =>
        rw [Gzip.decompress_within (within compressed)]
        cases read : Gzip.decompress none octets with
        | error fault => rfl
        | ok outcome =>
            rw [Gzip.eq_content_expanded read]
  unfold parse parseElements
  rw [same]

/-- A compressed dump that expands past the limit is not read. -/
theorem parse_beyond {octets : List UInt8} {limit : Nat} (compressed : Gzip.isGzip octets)
    (beyond : limit < (Gzip.expanded octets).length) :
    ∃ failure, parse (some limit) octets = .error failure ∧
      (failure = .inflatedTooLarge limit ∨ failure = .malformedGzip .corrupt) := by
  unfold parse parseElements inflate
  rw [compressed]
  rcases Gzip.decompress_beyond beyond with exceeded | damaged
  · rw [exceeded]
    exact ⟨_, rfl, .inl rfl⟩
  · rw [damaged]
    exact ⟨_, rfl, .inr rfl⟩

/-- A compressed dump that is read under a limit has content, which is within the limit. -/
theorem expanded_of_parse {octets : List UInt8} {limit : Nat} {dump : Dump}
    (parsed : parse (some limit) octets = .ok dump) (compressed : Gzip.isGzip octets) :
    Gzip.decompress none octets = .ok (.content (Gzip.expanded octets)) ∧
      (Gzip.expanded octets).length ≤ limit := by
  constructor
  · unfold parse parseElements inflate at parsed
    rw [compressed] at parsed
    cases read : Gzip.decompress (some limit) octets with
    | error fault =>
        rw [read] at parsed
        cases parsed
    | ok outcome =>
        rw [read] at parsed
        cases outcome with
        | exceeded => cases parsed
        | content content =>
            have whole := Gzip.decompress_unlimited read
            rwa [Gzip.eq_content_expanded whole] at whole
  · refine Nat.le_of_not_lt fun beyond => ?_
    obtain ⟨failure, refused, _⟩ := parse_beyond compressed beyond
    rw [refused] at parsed
    cases parsed

end Dump

end CodeNav
