import CjsInterop.Proofs.DiskSpelling
import CjsInterop.Verdict

/-! File trees that cannot be told apart by looking for modules in them: paths lead to the same places, and the
manifests say the same. -/

namespace CjsInterop

/-- The same node, apart from a text in the place of another. -/
inductive Node.SameKind : Node → Node → Prop
  | text (s t : Text) : SameKind (.file (some s)) (.file (some t))
  | same (n : Node) : SameKind n n

namespace Disk

/-- The same tree, apart from texts in the place of others. -/
structure SamePlaces (a b : Disk) : Prop where
  start : a.workingDirectory = b.workingDirectory
  node (location : Location) : Option.Rel Node.SameKind (a.find? location) (b.find? location)

variable {a b : Disk}

theorem SamePlaces.refl (a : Disk) : SamePlaces a a := by
  refine ⟨rfl, fun location => ?_⟩
  cases a.find? location with
  | none => exact .none
  | some n => exact .some (.same n)

/-- The package that a directory holds. -/
def package (disk : Disk) (dir : Path) : Except Unresolved (Option Package) :=
  match disk.read (Path.join dir "package.json") with
  | .error _ => .ok none
  | .ok content =>
    match Package.ofText? content with
    | none => .error .malformedPackage
    | some package => .ok (some package)

/-- The manifest that a directory holds, if any. -/
def manifest (disk : Disk) (dir : Path) : Manifest :=
  (Manifest.readFrom disk.view (Manifest.fileIn dir)).run

theorem package_congr {dir : Path} (h : a.read (Path.join dir "package.json") = b.read (Path.join dir "package.json")) :
    a.package dir = b.package dir := by
  unfold package
  rw [h]

theorem manifest_congr {dir : Path} (h : a.read (Manifest.fileIn dir) = b.read (Manifest.fileIn dir)) :
    a.manifest dir = b.manifest dir := by
  have hread : a.view.read (Manifest.fileIn dir) = b.view.read (Manifest.fileIn dir) := h
  unfold manifest Manifest.readFrom
  rw [hread]

/-- Trees in which paths lead to the same places, and in which every `package.json` says the same. -/
structure Alike (a b : Disk) : Prop where
  places : SamePlaces a b
  package (dir : Path) : a.package dir = b.package dir
  manifest (dir : Path) : a.manifest dir = b.manifest dir

theorem Alike.refl (a : Disk) : Alike a a := ⟨.refl a, fun _ => rfl, fun _ => rfl⟩

/-! ## Following paths -/

theorem follow_eq (h : SamePlaces a b) (mayBeNew : Bool)
    {onLink onLink' : Location → List Text → Except FileError Location}
    (hl : ∀ location steps, onLink location steps = onLink' location steps) (location : Location) (steps : List Text) :
    follow a mayBeNew onLink location steps = follow b mayBeNew onLink' location steps := by
  induction steps generalizing location with
  | nil => rfl
  | cons step rest ih =>
    have hhere := h.node location
    have hnext := h.node (step :: location)
    unfold follow
    generalize a.find? location = m, b.find? location = n at hhere
    generalize a.find? (step :: location) = m', b.find? (step :: location) = n' at hnext
    cases hhere with
    | none => rfl
    | @some node _ hn =>
      cases hn with
      | text => rfl
      | same =>
        cases node with
        | file content => rfl
        | link target => rfl
        | directory =>
          simp only [ih]
          cases hnext with
          | none => rfl
          | @some node _ hn =>
            cases hn with
            | text => rfl
            | same => cases node <;> simp only [hl]

theorem walk_eq (h : SamePlaces a b) (mayBeNew : Bool) (links : Nat) (location : Location) (steps : List Text) :
    walk a mayBeNew links location steps = walk b mayBeNew links location steps := by
  induction links generalizing location steps with
  | zero => rfl
  | succ links ih => exact follow_eq h mayBeNew ih location steps

theorem locate_eq (h : SamePlaces a b) (mayBeNew : Bool) (path : Path) : a.locate mayBeNew path = b.locate mayBeNew path := by
  unfold locate
  rw [h.start]
  split
  · rfl
  · split
    · exact walk_eq h mayBeNew _ _ _
    · rfl

theorem kind?_eq (h : SamePlaces a b) (path : Path) : a.kind? path = b.kind? path := by
  unfold kind?
  rw [locate_eq h]
  cases b.locate false path with
  | error e => rfl
  | ok location =>
    have hnode := h.node location
    simp only [Except.toOption, Option.bind_some]
    generalize a.find? location = m, b.find? location = n at hnode
    cases hnode with
    | none => rfl
    | some hn => cases hn <;> rfl

theorem settle_eq (h : SamePlaces a b) {onLink onLink' : List Text → Option Location}
    (hl : ∀ names, onLink names = onLink' names) (location : Location) (parts : List Path.Part) :
    settle a onLink location parts = settle b onLink' location parts := by
  induction parts generalizing location with
  | nil => rfl
  | cons part rest ih =>
    cases part with
    | root => exact ih _
    | here => exact ih _
    | up => exact ih _
    | name n =>
      have hnode := h.node (n :: location)
      unfold settle
      generalize a.find? (n :: location) = m, b.find? (n :: location) = m' at hnode
      cases hnode with
      | none => exact ih _
      | @some node _ hn =>
        cases hn with
        | text => exact ih _
        | same => cases node <;> simp only [hl, ih]

theorem realLocation?_eq (h : SamePlaces a b) (links : Nat) (parts : List Path.Part) :
    a.realLocation? links parts = b.realLocation? links parts := by
  induction links generalizing parts with
  | zero => rfl
  | succ links ih => exact settle_eq h (fun names => ih _) [] parts

theorem realPath?_eq (h : SamePlaces a b) (path : Path) : a.realPath? path = b.realPath? path := by
  unfold realPath?
  rw [realLocation?_eq h]

/-! ## Writing -/

theorem find?_put (disk : Disk) (location : Location) (node : Node) (l : Location) :
    (disk.put location node).find? l = if l = location then some node else disk.find? l := by
  unfold put find?
  by_cases hl : l = location
  · subst hl
    simp
  · have hne : (location == l) = false := by simpa using fun he => hl he.symm
    have hfilter : (fun entry : Location × Node => decide ((entry.1 != location) = true ∧ (entry.1 == l) = true)) =
        fun entry => entry.1 == l := by
      funext entry
      by_cases he : entry.1 = l
      · simp [he, hl]
      · simp [he]
    rw [if_neg hl, List.find?_cons, hne, List.find?_filter, hfilter]

/-- A text gives way to another. -/
theorem SamePlaces.put (h : SamePlaces a b) {location : Location} {s : Text}
    (hs : a.find? location = some (.file (some s))) (t : Text) : SamePlaces a (b.put location (.file (some t))) := by
  refine ⟨h.start, fun l => ?_⟩
  rw [find?_put]
  split
  · next hl =>
    rw [hl, hs]
    exact .some (.text s t)
  · exact h.node l

/-- What leads to a node also does so where the last step may be new. -/
theorem follow_mayBeNew {disk : Disk} {onLink onLink' : Location → List Text → Except FileError Location}
    (hl : ∀ location steps l, onLink location steps = .ok l → onLink' location steps = .ok l) {location l : Location}
    {steps : List Text} (h : follow disk false onLink location steps = .ok l) :
    follow disk true onLink' location steps = .ok l := by
  induction steps generalizing location with
  | nil => exact h
  | cons step rest ih =>
    unfold follow at h ⊢
    cases hd : disk.find? location with
    | none => simp [hd] at h
    | some node =>
      rw [hd] at h
      cases node with
      | file content => cases h
      | link target => cases h
      | directory =>
        simp only at h ⊢
        split at h
        · next hidle => exact (if_pos hidle).trans (ih h)
        · next hidle =>
          rw [if_neg hidle]
          split at h
          · next hup => exact (if_pos hup).trans (ih h)
          · next hup =>
            rw [if_neg hup]
            split at h
            · cases h
            · next hlong =>
              rw [if_neg hlong]
              split at h
              · exact hl _ _ _ h
              · exact ih h
              · simp at h

theorem walk_mayBeNew {disk : Disk} {links : Nat} {location l : Location} {steps : List Text}
    (h : walk disk false links location steps = .ok l) : walk disk true links location steps = .ok l := by
  induction links generalizing location steps l with
  | zero => exact h
  | succ links ih => exact follow_mayBeNew (fun _ _ _ => ih) h

theorem locate_mayBeNew {disk : Disk} {path : Path} {l : Location} (h : disk.locate false path = .ok l) :
    disk.locate true path = .ok l := by
  unfold locate at h ⊢
  split at h
  · cases h
  · next hne =>
    rw [if_neg hne]
    split at h
    · exact walk_mayBeNew h
    · cases h

/-- Where the last step may be new, what leads to a node does so anyway. -/
theorem follow_of_found {disk : Disk} {onLink onLink' : Location → List Text → Except FileError Location} {l : Location}
    (hf : (disk.find? l).isSome) (hl : ∀ location steps, onLink location steps = .ok l → onLink' location steps = .ok l)
    {location : Location} {steps : List Text} (h : follow disk true onLink location steps = .ok l) :
    follow disk false onLink' location steps = .ok l := by
  induction steps generalizing location with
  | nil => exact h
  | cons step rest ih =>
    unfold follow at h ⊢
    cases hd : disk.find? location with
    | none => simp [hd] at h
    | some node =>
      rw [hd] at h
      cases node with
      | file content => cases h
      | link target => cases h
      | directory =>
        simp only at h ⊢
        split at h
        · next hidle => exact (if_pos hidle).trans (ih h)
        · next hidle =>
          rw [if_neg hidle]
          split at h
          · next hup => exact (if_pos hup).trans (ih h)
          · next hup =>
            rw [if_neg hup]
            split at h
            · cases h
            · next hlong =>
              rw [if_neg hlong]
              split at h
              · exact hl _ _ h
              · exact ih h
              · next hnone =>
                split at h
                · cases h
                  simp [hnone] at hf
                · cases h

theorem walk_of_found {disk : Disk} {l : Location} (hf : (disk.find? l).isSome) {links : Nat} {location : Location}
    {steps : List Text} (h : walk disk true links location steps = .ok l) :
    walk disk false links location steps = .ok l := by
  induction links generalizing location steps with
  | zero => exact h
  | succ links ih => exact follow_of_found hf (fun _ _ => ih) h

theorem locate_of_found {disk : Disk} {path : Path} {l : Location} (hf : (disk.find? l).isSome)
    (h : disk.locate true path = .ok l) : disk.locate false path = .ok l := by
  unfold locate at h ⊢
  split at h
  · cases h
  · next hne =>
    rw [if_neg hne]
    split at h
    · exact walk_of_found hf h
    · cases h

/-- A text that can be read is at a place where another can be written. -/
theorem write_of_read {disk : Disk} {path : Path} {s : Text} (h : disk.read path = .ok s) :
    ∃ location, disk.locate false path = .ok location ∧ disk.find? location = some (.file (some s)) ∧
      ∀ text, disk.write path text = .ok (disk.put location (.file (some text))) := by
  unfold read at h
  cases hl : disk.locate false path with
  | error e =>
    rw [hl] at h
    cases h
  | ok location =>
    rw [hl] at h
    simp only [bind, Except.bind] at h
    refine ⟨location, rfl, ?_, fun text => ?_⟩
    · split at h
      · next hf =>
        cases h
        exact hf
      all_goals cases h
    · unfold write
      rw [locate_mayBeNew hl]
      simp only [bind, Except.bind]
      split
      · next hf =>
        rw [hf] at h
        cases h
      · rfl

end Disk
end CjsInterop
