import CjsInterop.Options
import Mathlib

/-! A name matches `**/*` with an extension behind it when it ends with the extension, in whatever directory it is and
whatever stands in front of the extension. The files covered by default are those with the extensions of JavaScript. -/

namespace CjsInterop

namespace Glob

variable {glob path ext : Bytes} {choices : Choices} {fuel i : Nat} {s next : State}

/-! ## Single steps -/

/-- The bytes that the matcher does not read as themselves. -/
def marks : Bytes := bytesOf "*?[\x7b\x7d,\\/"

theorem readPlain_eq {b : UInt8} (hb : glob[s.glob]? = some b) (hm : b ∉ marks) :
    readPlain glob path s =
      if path[s.path]? = some b then .go { s with glob := s.glob + 1, path := s.path + 1 } else .stuck := by
  have hslash : b ≠ byte '/' := by
    rintro rfl
    exact hm (by decide)
  have hescape : unescape? glob s.glob = some (b, s.glob) := by
    have hback : b ≠ byte '\\' := by
      rintro rfl
      exact hm (by decide)
    simp [unescape?, hb, hback]
  cases hp : path[s.path]? with
  | none => simp [readPlain, hp]
  | some a =>
    by_cases ha : a = b
    · simp [readPlain, hp, hescape, ha, hslash]
    · simp [readPlain, hp, hescape, ha]

theorem step_plain {b : UInt8} (hb : glob[s.glob]? = some b) (hm : b ∉ marks) :
    step glob path choices s = readPlain glob path s := by
  have hne : ∀ c ∈ marks, b ≠ c := fun c hc he => hm (he ▸ hc)
  have hstar := hne (byte '*') (by decide)
  have hone := hne (byte '?') (by decide)
  have hclass := hne (byte '[') (by decide)
  have hopen := hne (byte '\x7b') (by decide)
  have hcomma := hne (byte ',') (by decide)
  have hclose := hne (byte '\x7d') (by decide)
  simp [step, hb, hstar, hone, hclass, hopen, hcomma, hclose]

theorem step_star (h : glob[s.glob]? = some (byte '*')) : step glob path choices s = .go (readStar glob path s) := by
  simp [step, h]

theorem run_go (h : step glob path choices s = .go next) :
    run glob path (fuel + 1) choices s = run glob path fuel choices next := by
  have hopen : ¬(glob.length ≤ s.glob ∧ path.length ≤ s.path) := by
    intro hdone
    rw [step, List.getElem?_eq_none hdone.1] at h
    cases h
  rw [run, if_neg hopen, h]

/-- What comes of a run that cannot go on from here. -/
def fallBack (glob path : Bytes) (fuel : Nat) (s : State) : Bool :=
  match retry path s with
  | some next => run glob path fuel [] next
  | none => false

theorem run_stuck (h : step glob path [] s = .stuck) (hopen : ¬(glob.length ≤ s.glob ∧ path.length ≤ s.path)) :
    run glob path (fuel + 1) [] s = fallBack glob path fuel s := by
  rw [run, if_neg hopen, h]
  rfl

theorem fallBack_star (h : 0 < s.star.path ∧ s.star.path ≤ path.length) :
    fallBack glob path fuel s =
      run glob path fuel [] { s with glob := s.star.glob, path := s.star.path, depth := s.star.depth } := by
  simp only [fallBack, retry, if_pos h]

theorem fallBack_end (h : path.length < s.star.path) : fallBack glob path fuel s = false := by
  have hno : ¬(0 < s.star.path ∧ s.star.path ≤ path.length) := by omega
  simp only [fallBack, retry, if_neg hno]

/-! ## Bytes that stand for themselves -/

/-- The rest of a pattern that stands for itself is the rest of the name, or the run falls back to the star. -/
theorem run_literal {P : Prop} {n : Nat} (hplain : ∀ b ∈ ext, b ∉ marks) (hglob : glob.drop s.glob = ext)
    (hfall : ∀ fuel, n ≤ fuel → (fallBack glob path fuel s = true ↔ P)) (hfuel : n + ext.length + 1 ≤ fuel) :
    run glob path fuel [] s = true ↔ path.drop s.path = ext ∨ P := by
  induction ext generalizing s fuel with
  | nil =>
    have hend : glob.length ≤ s.glob := List.drop_eq_nil_iff.mp hglob
    obtain ⟨fuel, rfl⟩ : ∃ n, fuel = n + 1 := ⟨fuel - 1, by omega⟩
    by_cases hdone : path.length ≤ s.path
    · have hp : path.drop s.path = [] := List.drop_eq_nil_iff.mpr hdone
      simp [run, hend, hdone, hp]
    · have hstuck : step glob path [] s = .stuck := by rw [step, List.getElem?_eq_none hend]
      have hp : path.drop s.path ≠ [] := fun he => hdone (List.drop_eq_nil_iff.mp he)
      rw [run_stuck hstuck (fun h => hdone h.2), hfall fuel (by simp at hfuel; omega)]
      simp [hp]
  | cons b ext ih =>
    have hb : glob[s.glob]? = some b := by rw [← List.head?_drop, hglob]; rfl
    have hmore : glob.drop (s.glob + 1) = ext := by rw [← List.tail_drop, hglob]; rfl
    have hm : b ∉ marks := hplain b List.mem_cons_self
    have hstep := @step_plain glob path [] s b hb hm
    rw [readPlain_eq hb hm] at hstep
    obtain ⟨fuel, rfl⟩ : ∃ n, fuel = n + 1 := ⟨fuel - 1, by omega⟩
    simp only [List.length_cons] at hfuel
    by_cases ha : path[s.path]? = some b
    · have hp : path.drop s.path = b :: path.drop (s.path + 1) := by
        have hlt := List.getElem?_eq_some_iff.mp ha
        obtain ⟨hlt, hget⟩ := hlt
        rw [List.drop_eq_getElem_cons hlt, hget]
      rw [if_pos ha] at hstep
      have hrest := @ih fuel { s with glob := s.glob + 1, path := s.path + 1 }
        (fun c hc => hplain c (List.mem_cons_of_mem _ hc)) hmore hfall (by omega)
      rw [run_go hstep, hrest, hp]
      simp
    · have hlt : ¬(glob.length ≤ s.glob ∧ path.length ≤ s.path) := by
        intro h
        rw [List.getElem?_eq_none h.1] at hb
        cases hb
      have hp : path.drop s.path ≠ b :: ext := by
        intro he
        apply ha
        rw [← List.head?_drop, he]
        rfl
      rw [if_neg ha] at hstep
      rw [run_stuck hstep hlt, hfall fuel (by omega)]
      simp [hp]

/-! ## Segments -/

theorem segmentEnd_slash (h : path[i]? = some (byte '/')) : segmentEnd path i = i := by
  obtain ⟨hi, hget⟩ := List.getElem?_eq_some_iff.mp h
  simp [segmentEnd, List.drop_eq_getElem_cons hi, hget]

theorem segmentEnd_other (hi : i < path.length) (h : path[i]? ≠ some (byte '/')) :
    segmentEnd path i = segmentEnd path (i + 1) := by
  have hget : path[i] ≠ byte '/' := fun he => h (by rw [List.getElem?_eq_getElem hi, he])
  have htake : (path.drop i).takeWhile (fun b => decide (b ≠ byte '/')) =
      path[i] :: (path.drop (i + 1)).takeWhile (fun b => decide (b ≠ byte '/')) := by
    rw [List.drop_eq_getElem_cons hi, List.takeWhile_cons_of_pos (by simpa using hget)]
  simp only [segmentEnd, htake, List.length_cons]
  omega

/-! ## Any directory and any file name, up to the extension -/

/-- The pattern of all names with the extension. -/
def withExtension (ext : Bytes) : Bytes := bytesOf "**/*" ++ ext

theorem withExtension_eq (ext : Bytes) :
    withExtension ext = byte '*' :: byte '*' :: byte '/' :: byte '*' :: ext := rfl

/-- The matcher stands at the single star with `i` bytes of the name read, and can start again behind the next
slash. -/
structure AtStar (path : Bytes) (i : Nat) (s : State) : Prop where
  glob_eq : s.glob = 3
  path_eq : s.path = i
  entry_eq : s.entry = 0
  depth_eq : s.depth = 0
  deepStar_eq : i < path.length → s.deepStar = ⟨0, segmentEnd path i + 1, 0⟩

/-- A double star in front is the only one. -/
theorem skipRepeated_withExtension (hplain : ∀ b ∈ ext, b ∉ marks) :
    skipRepeated (withExtension ext) (withExtension ext).length 2 = 2 := by
  have hstar : byte '*' ∉ ext := fun h => hplain _ h (by decide)
  have hlength : (withExtension ext).length = ext.length + 3 + 1 := rfl
  have htake : (List.drop 2 (withExtension ext)).take 4 ≠ bytesOf "/**/" := by
    intro h
    have he : byte '/' :: byte '*' :: ext.take 2 = byte '/' :: byte '*' :: [byte '*', byte '/'] := h
    have hmem : byte '*' ∈ ext.take 2 := by
      rw [(List.cons.inj (List.cons.inj he).2).2]
      decide
    exact hstar (List.mem_of_mem_take hmem)
  have hdrop : List.drop 2 (withExtension ext) ≠ bytesOf "/**" := by
    intro h
    have he : byte '/' :: byte '*' :: ext = byte '/' :: byte '*' :: [byte '*'] := h
    rw [(List.cons.inj (List.cons.inj he).2).2] at hstar
    exact hstar (by decide)
  rw [hlength, skipRepeated, if_neg htake, if_neg hdrop]

/-- The double star leads to the single one. -/
theorem step_directories (hplain : ∀ b ∈ ext, b ∉ marks) (hglob : s.glob = 0) (hentry : s.entry = 0)
    (hdepth : s.depth = 0) :
    ∃ next, step (withExtension ext) path choices s = .go next ∧ AtStar path s.path next := by
  have hfirst : (withExtension ext)[s.glob]? = some (byte '*') := by rw [hglob]; rfl
  have hsecond : (withExtension ext)[0 + 1]? = some (byte '*') := rfl
  have hslash : (withExtension ext)[2]? = some (byte '/') := rfl
  have hmore : 2 ≠ (withExtension ext).length := by simp [withExtension_eq]
  have hread : readStar (withExtension ext) path s =
      if s.path = path.length then { s with glob := 3, star := ⟨0, s.path + 1 + 1, s.depth⟩ }
      else
        { s with
          glob := 3
          star := ⟨0, segmentEnd path s.path + 1, s.depth⟩
          deepStar := ⟨0, segmentEnd path s.path + 1, s.depth⟩ } := by
    simp [readStar, hglob, hentry, hsecond, skipRepeated_withExtension hplain, hmore, hslash]
  refine ⟨_, step_star hfirst, ?_⟩
  rw [hread]
  by_cases hend : s.path = path.length
  · rw [if_pos hend]
    exact ⟨rfl, rfl, hentry, hdepth, fun h => absurd h (by omega)⟩
  · rw [if_neg hend]
    exact ⟨rfl, rfl, hentry, hdepth, fun _ => by rw [hdepth]⟩

/-- The state behind the single star. At a slash the star gives way to the double one. -/
def behindStar (path : Bytes) (i : Nat) (s : State) : State :=
  { s with glob := 4, star := if path[i]? = some (byte '/') then s.deepStar else ⟨3, i + 1, 0⟩ }

theorem step_atStar (hplain : ∀ b ∈ ext, b ∉ marks) (h : AtStar path i s) :
    step (withExtension ext) path choices s = .go (behindStar path i s) := by
  have hfirst : (withExtension ext)[s.glob]? = some (byte '*') := by rw [h.glob_eq]; rfl
  have hfourth : (withExtension ext)[3 + 1]? ≠ some (byte '*') := by
    have hext : (withExtension ext)[3 + 1]? = ext[0]? := rfl
    rw [hext]
    exact fun he => hplain _ (List.mem_of_getElem? he) (by decide)
  rw [step_star hfirst]
  by_cases hs : path[i]? = some (byte '/')
  · simp [readStar, behindStar, h.glob_eq, h.path_eq, hfourth, hs]
  · simp [readStar, behindStar, h.glob_eq, h.path_eq, h.depth_eq, hfourth, hs]

theorem run_behindStar (hplain : ∀ b ∈ ext, b ∉ marks) (h : AtStar path i s) {P : Prop} {n : Nat}
    (hfall : ∀ fuel, n ≤ fuel → (fallBack (withExtension ext) path fuel (behindStar path i s) = true ↔ P))
    (hfuel : n + ext.length + 2 ≤ fuel) :
    run (withExtension ext) path fuel [] s = true ↔ path.drop i = ext ∨ P := by
  obtain ⟨fuel, rfl⟩ : ∃ n, fuel = n + 1 := ⟨fuel - 1, by omega⟩
  have hrun := @run_literal _ path _ fuel (behindStar path i s) P n hplain rfl hfall (by omega)
  have hread : (behindStar path i s).path = i := h.path_eq
  rw [hread] at hrun
  rw [run_go (step_atStar hplain h), hrun]

/-- Between two slashes a run that falls back is at the single star again, one byte further. -/
theorem fallBack_name (h : AtStar path i s) (hi : i < path.length) (hs : path[i]? ≠ some (byte '/')) :
    ∃ next, fallBack glob path fuel (behindStar path i s) = run glob path fuel [] next ∧ AtStar path (i + 1) next := by
  have hstar : (behindStar path i s).star = ⟨3, i + 1, 0⟩ := if_neg hs
  refine ⟨_, fallBack_star (by rw [hstar]; simp; omega), ?_⟩
  rw [hstar]
  have hdeep : (behindStar path i s).deepStar = s.deepStar := rfl
  exact ⟨rfl, rfl, h.entry_eq, rfl, fun _ => by
    rw [← segmentEnd_other hi hs]
    exact hdeep.trans (h.deepStar_eq hi)⟩

/-- At a slash it is at the double star, and one step later at the single one. -/
theorem fallBack_slash (hplain : ∀ b ∈ ext, b ∉ marks) (h : AtStar path i s) (hi : i < path.length)
    (hs : path[i]? = some (byte '/')) :
    ∃ next, fallBack (withExtension ext) path (fuel + 1) (behindStar path i s) =
      run (withExtension ext) path fuel [] next ∧ AtStar path (i + 1) next := by
  have hstar : (behindStar path i s).star = ⟨0, i + 1, 0⟩ := by
    have hdeep : (behindStar path i s).star = s.deepStar := if_pos hs
    rw [hdeep, h.deepStar_eq hi, segmentEnd_slash hs]
  rw [fallBack_star (by rw [hstar]; simp; omega), hstar]
  obtain ⟨next, hstep, hnext⟩ :=
    @step_directories path ext [] { behindStar path i s with glob := 0, path := i + 1, depth := 0 } hplain rfl h.entry_eq rfl
  exact ⟨next, run_go hstep, hnext⟩

/-- From the single star on a name is accepted when some end of it is the extension. Each byte of the name costs one
reading of the pattern at most. -/
theorem run_atStar (hplain : ∀ b ∈ ext, b ∉ marks) (h : AtStar path i s) (hi : i ≤ path.length)
    (hfuel : (path.length - i) * (ext.length + 3) + ext.length + 2 ≤ fuel) :
    run (withExtension ext) path fuel [] s = true ↔ ext <:+ path.drop i := by
  induction hn : path.length - i generalizing i s fuel with
  | zero =>
    have hlast : path.length ≤ i := by omega
    have hnone : path[i]? = none := List.getElem?_eq_none hlast
    have hstar : (behindStar path i s).star = ⟨3, i + 1, 0⟩ := if_neg (by rw [hnone]; rintro ⟨⟩)
    have hfall : ∀ fuel, 0 ≤ fuel → (fallBack (withExtension ext) path fuel (behindStar path i s) = true ↔ False) := by
      intro fuel _
      rw [fallBack_end (by rw [hstar]; exact Nat.lt_succ_of_le hlast)]
      simp
    rw [run_behindStar hplain h hfall (by omega), List.drop_eq_nil_iff.mpr hlast, List.suffix_nil]
    simp [eq_comm]
  | succ n ih =>
    have hlt : i < path.length := by omega
    have hfall : ∀ fuel, n * (ext.length + 3) + ext.length + 3 ≤ fuel →
        (fallBack (withExtension ext) path fuel (behindStar path i s) = true ↔ ext <:+ path.drop (i + 1)) := by
      intro fuel hfuel
      have hrest : path.length - (i + 1) = n := by omega
      by_cases hs : path[i]? = some (byte '/')
      · obtain ⟨fuel, rfl⟩ : ∃ n, fuel = n + 1 := ⟨fuel - 1, by omega⟩
        obtain ⟨next, hrun, hnext⟩ := @fallBack_slash path ext fuel i s hplain h hlt hs
        rw [hrun]
        exact ih hnext hlt (by rw [hrest]; omega) hrest
      · obtain ⟨next, hrun, hnext⟩ := @fallBack_name (withExtension ext) path fuel i s h hlt hs
        rw [hrun]
        exact ih hnext hlt (by rw [hrest]; omega) hrest
    have hcost : (n + 1) * (ext.length + 3) = n * (ext.length + 3) + ext.length + 3 := by
      rw [Nat.add_mul, Nat.one_mul, Nat.add_assoc]
    rw [hn, hcost] at hfuel
    rw [run_behindStar hplain h hfall (by omega), List.drop_eq_getElem_cons hlt, List.suffix_cons_iff]
    simp only [eq_comm]

/-! ## Names as text -/

theorem utf8EncodeChar_ascii {c : Char} (h : c.toNat < 128) : String.utf8EncodeChar c = [byte c] := by
  have hval : c.val.toNat ≤ 0x7f := Nat.le_of_lt_succ h
  rw [String.utf8EncodeChar, if_pos hval]
  rfl

/-- No byte of a character beyond ASCII is an ASCII one. -/
theorem le_of_mem_utf8EncodeChar {c : Char} (h : ¬c.toNat < 128) {b : UInt8} (hb : b ∈ String.utf8EncodeChar c) :
    128 ≤ b.toNat := by
  have hlow : ¬c.val.toNat ≤ 0x7f := fun hle => h (Nat.lt_succ_of_le hle)
  have hhigh : c.val.toNat < 0x110000 := by
    have := c.valid
    rcases this with h | h <;> omega
  have htop : c.val.toNat / 262144 ≤ 4 := by omega
  unfold String.utf8EncodeChar at hb
  simp only [if_neg hlow] at hb
  split at hb
  · simp only [List.mem_cons, List.not_mem_nil, or_false] at hb
    rcases hb with rfl | rfl <;> simp <;> omega
  · split at hb
    · simp only [List.mem_cons, List.not_mem_nil, or_false] at hb
      rcases hb with rfl | rfl | rfl <;> simp <;> omega
    · simp only [List.mem_cons, List.not_mem_nil, or_false] at hb
      rcases hb with rfl | rfl | rfl | rfl <;> simp <;> omega

theorem bytesOf_append (a b : Text) : bytesOf (a ++ b) = bytesOf a ++ bytesOf b := List.flatMap_append

theorem byte_toNat {c : Char} (h : c.toNat < 128) : (byte c).toNat = c.toNat := by
  have hmod : (byte c).toNat = c.toNat % 256 := rfl
  omega

/-- An ASCII character is found by its byte. -/
theorem eq_of_byte_mem {c d : Char} (hc : c.toNat < 128) (h : byte c ∈ String.utf8EncodeChar d) : c = d := by
  by_cases hd : d.toNat < 128
  · rw [utf8EncodeChar_ascii hd, List.mem_singleton] at h
    apply Char.toNat_inj.mp
    rw [← byte_toNat hc, ← byte_toNat hd, h]
  · have hhigh := le_of_mem_utf8EncodeChar hd h
    rw [byte_toNat hc] at hhigh
    omega

theorem bytesOf_concat (text : Text) (c : Char) : bytesOf (text ++ [c]) = bytesOf text ++ String.utf8EncodeChar c := by
  simp [bytesOf]

/-- An ASCII text ends a text when its bytes end its bytes. -/
theorem bytesOf_suffix_iff {tail : Text} (hascii : ∀ c ∈ tail, c.toNat < 128) (name : Text) :
    bytesOf tail <:+ bytesOf name ↔ tail <:+ name := by
  constructor
  · intro h
    induction tail using List.reverseRecOn generalizing name with
    | nil => exact List.nil_suffix
    | append_singleton tail c ih =>
      have hc : c.toNat < 128 := hascii c (by simp)
      rw [bytesOf_concat, utf8EncodeChar_ascii hc] at h
      cases name using List.reverseRecOn with
      | nil => simp [bytesOf] at h
      | append_singleton name d =>
        rw [bytesOf_concat] at h
        obtain ⟨front, hfront⟩ := h
        rw [← List.append_assoc] at hfront
        -- The last bytes of the two are the same, so the last characters are.
        have hlast : (String.utf8EncodeChar d).getLast? = some (byte c) := by
          rw [← List.getLast?_append_of_ne_nil (bytesOf name) String.utf8EncodeChar_ne_nil, ← hfront]
          exact List.getLast?_concat
        obtain rfl : c = d := eq_of_byte_mem hc (List.mem_of_getLast? hlast)
        rw [utf8EncodeChar_ascii hc] at hfront
        have htail : bytesOf tail <:+ bytesOf name := ⟨front, List.append_cancel_right hfront⟩
        have hsuffix := ih (fun b hb => hascii b (List.mem_append_left _ hb)) name htail
        exact List.suffix_append_self_iff.mpr hsuffix
  · rintro ⟨front, rfl⟩
    exact ⟨bytesOf front, (bytesOf_append front tail).symm⟩

/-- Where the matcher begins it is at the double star, and what it may cost is enough for every byte of the name. -/
theorem run_withExtension (hplain : ∀ b ∈ ext, b ∉ marks) :
    run (withExtension ext) path (bound (withExtension ext) path) [] {} = true ↔ ext <:+ path := by
  have hlength : (withExtension ext).length = ext.length + 4 := rfl
  have hbound : path.length * (ext.length + 3) + ext.length + 3 ≤ bound (withExtension ext) path := by
    have hcost : path.length * (ext.length + 3) + ext.length + 3 ≤
        (ext.length + 4 + path.length + 2) * (ext.length + 4 + 2) := by
      nlinarith
    have hpath : 1 ≤ (path.length + 2) * (path.length + 2) := Nat.mul_pos (by omega) (by omega)
    rw [bound, hlength, Nat.mul_assoc]
    exact hcost.trans (Nat.le_mul_of_pos_right _ hpath)
  obtain ⟨fuel, hfuel⟩ : ∃ n, bound (withExtension ext) path = n + 1 :=
    ⟨bound (withExtension ext) path - 1, by omega⟩
  obtain ⟨next, hstep, hnext⟩ := @step_directories path ext [] {} hplain rfl rfl rfl
  rw [hfuel, run_go hstep, run_atStar hplain hnext (Nat.zero_le _) (by simp only [Nat.sub_zero]; omega)]
  rfl

/-- An extension of ASCII characters without a meaning of their own is looked for at the end of the name alone. -/
theorem isMatch_withExtension {ext : Text} (hext : ∀ c ∈ ext, c.toNat < 128 ∧ byte c ∉ marks) (name : Text) :
    isMatch ("**/*".toList ++ ext) name = true ↔ ext <:+ name := by
  have hascii : ∀ c ∈ ext, c.toNat < 128 := fun c hc => (hext c hc).1
  have hplain : ∀ b ∈ bytesOf ext, b ∉ marks := by
    intro b hb
    obtain ⟨c, hc, hbc⟩ := List.mem_flatMap.mp hb
    rw [utf8EncodeChar_ascii (hascii c hc), List.mem_singleton] at hbc
    rw [hbc]
    exact (hext c hc).2
  have hglob : bytesOf ("**/*".toList ++ ext) = withExtension (bytesOf ext) := bytesOf_append _ _
  have hnegations : (withExtension (bytesOf ext)).takeWhile (· = byte '!') = [] := rfl
  have hmatch : isMatch ("**/*".toList ++ ext) name =
      run (withExtension (bytesOf ext)) (bytesOf name) (bound (withExtension (bytesOf ext)) (bytesOf name)) [] {} := by
    simp only [isMatch, hglob, hnegations]
    rfl
  rw [hmatch, run_withExtension hplain, bytesOf_suffix_iff hascii]

end Glob

/-! ## What is covered by default -/

/-- What is left of a name stands behind all `./`s in front of it. -/
theorem stripDots_eq (name : Text) :
    ∃ n, name = (List.replicate n "./".toList).flatten ++ stripDots name ∧ ¬"./".toList <+: stripDots name := by
  fun_induction stripDots name with
  | case1 rest ih =>
    obtain ⟨n, hname, hrest⟩ := ih
    refine ⟨n + 1, ?_, hrest⟩
    rw [List.replicate_succ, List.flatten_cons, List.append_assoc, ← hname]
    rfl
  | case2 name hname =>
    refine ⟨0, rfl, ?_⟩
    rintro ⟨rest, rfl⟩
    exact hname rest rfl

/-- The name has an extension of JavaScript. -/
def IsJavaScript (name : Text) : Prop := ".js".toList <:+ name ∨ ".mjs".toList <:+ name

theorem isMatch_javaScript (name : Text) :
    (∃ glob ∈ ["**/*.js".toList, "**/*.mjs".toList], Glob.isMatch glob name = true) ↔ IsJavaScript name := by
  have hplain : ∀ ext ∈ [".js".toList, ".mjs".toList], ∀ c ∈ ext, c.toNat < 128 ∧ Glob.byte c ∉ Glob.marks := by
    have hall : ([".js".toList, ".mjs".toList].all fun ext =>
        ext.all fun c => decide (c.toNat < 128 ∧ Glob.byte c ∉ Glob.marks)) = true := rfl
    intro ext hext c hc
    exact of_decide_eq_true (List.all_eq_true.mp (List.all_eq_true.mp hall ext hext) c hc)
  have hjs := Glob.isMatch_withExtension (hplain ".js".toList (by simp)) name
  have hmjs := Glob.isMatch_withExtension (hplain ".mjs".toList (by simp)) name
  constructor
  · rintro ⟨glob, hglob, hmatch⟩
    rcases List.mem_cons.mp hglob with rfl | hglob
    · exact .inl (hjs.mp hmatch)
    · rw [List.mem_singleton.mp hglob] at hmatch
      exact .inr (hmjs.mp hmatch)
  · rintro (h | h)
    · exact ⟨_, List.mem_cons_self, hjs.mpr h⟩
    · exact ⟨_, List.mem_cons_of_mem _ (List.mem_singleton_self _), hmjs.mpr h⟩

theorem Settings.covers_iff (settings : Settings) (fileName : Text) :
    settings.covers fileName = true ↔
      (∃ glob ∈ settings.includes, Glob.isMatch glob (stripDots fileName) = true) ∧
        ∀ glob ∈ settings.excludes, ¬Glob.isMatch glob (stripDots fileName) := by
  simp [covers, and_comm]

/-- Where nothing is said about the files to include, a file is covered when its name, without the `./`s in front of
it, ends with an extension of JavaScript. What is excluded takes away the names that it matches, and no other. -/
theorem Options.covers_javaScript (options : Options) (fileName : Text) :
    ∃ n name, fileName = (List.replicate n "./".toList).flatten ++ name ∧ ¬"./".toList <+: name ∧
      ({ options with includes := none, excludes := none }.settings.covers fileName = true ↔ IsJavaScript name) ∧
      ∀ excludes, { options with includes := none, excludes := some excludes }.settings.covers fileName = true ↔
        IsJavaScript name ∧ ∀ glob ∈ excludes, ¬Glob.isMatch glob name := by
  obtain ⟨n, hname, hrest⟩ := stripDots_eq fileName
  refine ⟨n, stripDots fileName, hname, hrest, ?_, fun excludes => ?_⟩
  · rw [Settings.covers_iff]
    refine (and_iff_left ?_).trans (isMatch_javaScript _)
    exact List.forall_mem_nil _
  · rw [Settings.covers_iff]
    exact and_congr_left' (isMatch_javaScript _)

end CjsInterop
