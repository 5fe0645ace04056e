import ShaderMend.Proofs.Memory.Accesses

/-!
# Strings at any place

A search for a string starts anywhere in a view, also where it ends. Its window goes to the end of
the view, or to the last byte of the address space but one, since the address after the last byte
is no word.

* `View.StringAt` — a string and its zero stand at an address.
* `View.terminated?_window` — what is found in the window.
* `View.readCString_of_partOf` — a string that is found in a part of a view is found in the whole.
* `View.strings_of_view` — when a search fails, finds a string, or finds none. The one string that
  is missed ends with the address space (`View.terminator_overlooked`).
-/

namespace ShaderMend.View

/-- Whether a string stands at an address: it has no zero and is shorter than the limit, and the
view shows it with a zero right behind it. -/
structure StringAt (view : View) (address : Address) (limit : UInt64) (name : Bytes) : Prop where
  noZero : 0 ∉ name
  short : name.length < limit.toNat
  shows : view.Shows address.toNat (name ++ [0])

variable {view : View} {address : Address} {limit : UInt64} {name : Bytes}

theorem covers_zero_iff {place : Nat} :
    view.Covers place 0 ↔
      view.base.toNat ≤ place ∧ place ≤ view.base.toNat + view.extent := by
  unfold Covers
  omega

/-- A string and its zero lie in the view. -/
theorem StringAt.covers (h : view.StringAt address limit name) :
    view.Covers address.toNat (name.length + 1) := by
  have hcovers := h.shows.covers (by simp)
  rwa [List.length_append, List.length_singleton] at hcovers

/-! ### The window -/

/-- The bytes that a search from an address looks at. -/
def window (view : View) (address : Address) (limit : UInt64) : Bytes :=
  (view.bytes.drop (address.toNat - view.base.toNat)).take
    (min limit (view.available address)).toNat

/-- The window is cut where the limit, the view or the addresses end. -/
theorem toNat_windowLength (view : View) (address : Address) (limit : UInt64) :
    (min limit (view.available address)).toNat
      = min limit.toNat
        (min (view.base.toNat + view.extent) (2 ^ 64 - 1) - address.toNat) := by
  rw [toNat_min, toNat_available]

theorem readCString_of_covers (h : view.Covers address.toNat 0) :
    view.readCString address limit = .ok (terminated? (view.window address limit)) := by
  obtain ⟨hbase, hstop⟩ := covers_zero_iff.mp h
  have hcount := toNat_windowLength view address limit
  have haddress := address.toNat_lt
  -- the window never leaves the view, nor does the end of it leave the addresses
  have hslice : view.slice address (min limit (view.available address))
      = .ok (view.window address limit) :=
    slice_eq_ok_iff.mpr ⟨address.toNat - view.base.toNat, by omega, by omega, by omega, rfl⟩
  rw [readCString, hslice]
  rfl

theorem covers_of_readCString {found : Option Bytes}
    (h : view.readCString address limit = .ok found) : view.Covers address.toNat 0 := by
  unfold readCString at h
  cases hslice : view.slice address (min limit (view.available address)) with
  | error failure => rw [hslice] at h; cases h
  | ok data =>
      obtain ⟨hbase, hinside⟩ := (covers_of_slice hslice).1
      exact ⟨hbase, by omega⟩

/-- **A string is found in the window** if it stands at the address, and its zero before the last
byte of the address space. -/
theorem terminated?_window (h : view.Covers address.toNat 0) :
    terminated? (view.window address limit) = some name ↔
      view.StringAt address limit name ∧ address.toNat + name.length + 1 < 2 ^ 64 := by
  obtain ⟨hbase, hstop⟩ := covers_zero_iff.mp h
  have hcount := toNat_windowLength view address limit
  have hshows : view.Shows address.toNat (name ++ [0]) ↔
      name ++ [0] <+: view.bytes.drop (address.toNat - view.base.toNat) := shows_iff_drop hbase
  rw [terminated?_eq_some_iff, window, List.prefix_take_iff, List.length_append,
    List.length_singleton, ← hshows]
  constructor
  · rintro ⟨hnone, hhere, hlength⟩
    exact ⟨⟨hnone, by omega, hhere⟩, by omega⟩
  · rintro ⟨hstring, hbelow⟩
    -- the string is within the limit and the view, so only the last address can cut it
    obtain ⟨-, hinside⟩ := hstring.covers
    have hshort := hstring.short
    exact ⟨hstring.noZero, hstring.shows, by omega⟩

/-! ### Searches -/

theorem exists_readCString_error_iff :
    (∃ failure, view.readCString address limit = .error failure) ↔
      ¬ view.Covers address.toNat 0 := by
  constructor
  · rintro ⟨failure, hfailure⟩ hcovers
    rw [readCString_of_covers hcovers] at hfailure
    cases hfailure
  · intro huncovered
    cases hread : view.readCString address limit with
    | error failure => exact ⟨failure, rfl⟩
    | ok found => exact absurd (covers_of_readCString hread) huncovered

theorem readCString_eq_some_iff :
    view.readCString address limit = .ok (some name) ↔
      view.StringAt address limit name ∧ address.toNat + name.length + 1 < 2 ^ 64 := by
  constructor
  · intro h
    have hcovers := covers_of_readCString h
    rw [readCString_of_covers hcovers] at h
    exact (terminated?_window hcovers).mp (Except.ok.inj h)
  · intro h
    obtain ⟨hbase, hinside⟩ := h.1.covers
    have hcovers : view.Covers address.toNat 0 := ⟨hbase, by omega⟩
    rw [readCString_of_covers hcovers, (terminated?_window hcovers).mpr h]

theorem readCString_eq_none_iff :
    view.readCString address limit = .ok none ↔
      view.Covers address.toNat 0 ∧
        ∀ name, view.StringAt address limit name → 2 ^ 64 ≤ address.toNat + name.length + 1 := by
  constructor
  · intro h
    have hcovers := covers_of_readCString h
    refine ⟨hcovers, fun name hstring => Nat.le_of_not_lt fun hbelow => ?_⟩
    rw [readCString_eq_some_iff.mpr ⟨hstring, hbelow⟩] at h
    cases h
  · rintro ⟨hcovers, hmissed⟩
    rw [readCString_of_covers hcovers]
    congr 1
    refine Option.eq_none_iff_forall_ne_some.mpr fun name hfound => ?_
    obtain ⟨hstring, hbelow⟩ := (terminated?_window hcovers).mp hfound
    exact absurd (hmissed name hstring) (Nat.not_le.mpr hbelow)

/-- A string that is found stands in the memory with the zero that ends it. -/
theorem readCString_eq_some (h : view.readCString address limit = .ok (some name)) :
    name ++ [0] <:+: view.bytes ∧ 0 ∉ name ∧ name.length < limit.toNat := by
  have hstring := (readCString_eq_some_iff.mp h).1
  have hbegins := (shows_iff_drop hstring.covers.1).mp hstring.shows
  exact ⟨hbegins.isInfix.trans (List.drop_suffix _ _).isInfix, hstring.noZero, hstring.short⟩

section Parts

variable {part whole : View} (h : part.PartOf whole)

include h

/-- **A string that ends inside of a part is the string of the whole.** Where it does not end
inside of the part, the whole may still show its end. -/
theorem readCString_of_partOf {found : Option Bytes}
    (hpart : part.readCString address limit = .ok found) :
    ∃ found', whole.readCString address limit = .ok found' ∧
      ∀ name, found = some name → found' = some name := by
  have hcovers := (covers_of_readCString hpart).of_partOf h
  refine ⟨_, readCString_of_covers hcovers, fun name hname => ?_⟩
  subst hname
  obtain ⟨hstring, hbelow⟩ := readCString_eq_some_iff.mp hpart
  have hshows := hstring.shows.of_partOf h
  exact (terminated?_window hcovers).mpr ⟨⟨hstring.noZero, hstring.short, hshows⟩, hbelow⟩

end Parts

/-- **A search for a string** fails exactly if its address is neither in the view nor where the
view ends. It finds a string exactly if this one stands at the address, and its zero before the
last byte of the address space; it finds none if no such string stands there. In a view that does
not show that byte, every string that stands at the address is found, also one whose zero is the
last byte of the view. -/
theorem strings_of_view (view : View) (address : Address) (limit : UInt64) :
    ((∃ failure, view.readCString address limit = .error failure) ↔
      ¬ (view.base.toNat ≤ address.toNat ∧
        address.toNat ≤ view.base.toNat + view.extent)) ∧
    (∀ name, view.readCString address limit = .ok (some name) ↔
      view.StringAt address limit name ∧ address.toNat + name.length + 1 < 2 ^ 64) ∧
    (view.readCString address limit = .ok none ↔
      (view.base.toNat ≤ address.toNat ∧ address.toNat ≤ view.base.toNat + view.extent) ∧
        ∀ name, view.StringAt address limit name → 2 ^ 64 ≤ address.toNat + name.length + 1) ∧
    (view.base.toNat + view.extent < 2 ^ 64 → ∀ name, view.StringAt address limit name →
      address.toNat + name.length + 1 < 2 ^ 64) := by
  rw [← covers_zero_iff]
  refine ⟨exists_readCString_error_iff, fun name => readCString_eq_some_iff,
    readCString_eq_none_iff, fun hroom name hstring => ?_⟩
  obtain ⟨hbase, hinside⟩ := hstring.covers
  omega

/-- A view of one name, whose zero is the last byte shown. -/
def nameView (base : Address) : View :=
  .ofBytes base [73, 83, 71, 78, 0]

theorem strings_of_nameView :
    (nameView 0xfffffffffffffffa).base.toNat + (nameView 0xfffffffffffffffa).extent < 2 ^ 64 ∧
      (nameView 0xfffffffffffffffa).StringAt 0xfffffffffffffffa 256 [73, 83, 71, 78] ∧
      (nameView 0xfffffffffffffffa).readCString 0xfffffffffffffffa 256
        = .ok (some [73, 83, 71, 78]) := by
  obtain ⟨-, hfound, -, hall⟩ :=
    strings_of_view (nameView 0xfffffffffffffffa) 0xfffffffffffffffa 256
  have hroom : (nameView 0xfffffffffffffffa).base.toNat
      + (nameView 0xfffffffffffffffa).extent < 2 ^ 64 := by
    decide
  have hstring : (nameView 0xfffffffffffffffa).StringAt 0xfffffffffffffffa 256
      [73, 83, 71, 78] :=
    ⟨by decide, by decide, by decide⟩
  exact ⟨hroom, hstring, (hfound _).mpr ⟨hstring, hall hroom _ hstring⟩⟩

/-- One byte further on, the name ends with the address space. Its zero can be read, but the
search for the name does not see it. -/
theorem terminator_overlooked :
    (nameView 0xfffffffffffffffb).base.toNat + (nameView 0xfffffffffffffffb).extent = 2 ^ 64 ∧
      (nameView 0xfffffffffffffffb).StringAt 0xfffffffffffffffb 256 [73, 83, 71, 78] ∧
      (nameView 0xfffffffffffffffb).readU8 0xffffffffffffffff = .ok 0 ∧
      (nameView 0xfffffffffffffffb).readCString 0xfffffffffffffffb 256 = .ok none :=
  ⟨by decide, ⟨by decide, by decide, by decide⟩, by decide, by decide⟩

end ShaderMend.View
