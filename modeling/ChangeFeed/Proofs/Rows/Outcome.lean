import ChangeFeed.Proofs.Result
import ChangeFeed.Record
import Mathlib.Tactic.ByContra
/-!
# Outcomes — what becomes of a row change

An envelope is dropped, or it has a record, or it is at fault, and which of
the three it is depends on very little of it: on its operation, its target
and the images that the operation uses (`RowFormat.images`). An image fits
if it is an object, `null` or absent, and the first that does not is the one
that the fault names. The images are all read before anything is written, so
an update never leaves half of itself behind.
-/


namespace ChangeFeed

/-- A value that gives the columns of a row; `null` gives none. -/
def Json.isColumns : Json → Bool
  | .null | .object _ => true
  | _ => false

namespace Row

/-- The value of an image that gives no columns. -/
def misfit? (image : Option Json) : Option Json := image.filter fun value => !value.isColumns

theorem misfit?_eq_some_iff {image : Option Json} {value : Json} :
    misfit? image = some value ↔ image = some value ∧ value.isColumns = false := by
  simp [misfit?, Option.filter_eq_some_iff]

/-- **A row cannot be read exactly off a misfit**, and the fault says of which
kind that is. -/
theorem ofImage_eq_error_iff {image : Option Json} {fault : Fault} :
    ofImage image = .error fault ↔
      ∃ value, misfit? image = some value ∧ fault = .malformedRow value.kindName := by
  simp only [misfit?_eq_some_iff]
  cases image with
  | none => simp [ofImage]
  | some value =>
    cases value with
    | null | object _ => simp [ofImage, Json.isColumns]
    | _ =>
      simp only [ofImage, Except.error.injEq]
      constructor
      · exact fun h => ⟨_, ⟨rfl, rfl⟩, h.symm⟩
      · rintro ⟨_, ⟨⟨⟩, -⟩, h⟩
        exact h.symm

end Row

namespace RowFormat

variable {format : RowFormat} {envelope other : Envelope} {operation : RowOperation}
variable {fault : Fault}

/-- **The images that an operation uses**, in the order in which they are
read. -/
def images (format : RowFormat) (envelope : Envelope) : List (Option Json) :=
  match envelope.operation with
  | some .read | some .create => [envelope.after]
  | some .delete => [envelope.before]
  | some .update =>
    if format.afterOnly then [envelope.after] else [envelope.after, envelope.before]
  | some (.unknown _) | none => []

/-- The first value among the images used that gives no columns. -/
def misfit? (format : RowFormat) (envelope : Envelope) : Option Json :=
  (format.images envelope).findSome? Row.misfit?

/-- There is a first misfit exactly if there is one at all. -/
theorem exists_misfit?_iff :
    (∃ value, format.misfit? envelope = some value) ↔
      ∃ value, some value ∈ format.images envelope ∧ value.isColumns = false := by
  constructor
  · rintro ⟨value, hvalue⟩
    obtain ⟨image, himage, hmisfit⟩ := List.exists_of_findSome?_eq_some hvalue
    obtain ⟨rfl, hcolumns⟩ := Row.misfit?_eq_some_iff.1 hmisfit
    exact ⟨value, himage, hcolumns⟩
  · rintro ⟨value, himage, hcolumns⟩
    have hmisfit := Row.misfit?_eq_some_iff.2 ⟨rfl, hcolumns⟩
    have hsome : (format.misfit? envelope).isSome = true :=
      List.findSome?_isSome_iff.2 ⟨some value, himage, by rw [hmisfit]; rfl⟩
    exact Option.isSome_iff_exists.1 hsome

/-! ## The lines of an operation -/

/-- A line that cannot be written names the misfit. -/
theorem line_eq_error_iff {image : Option Json} {isDeleted : Bool} :
    format.line image isDeleted = .error fault ↔
      ∃ value, Row.misfit? image = some value ∧ fault = .malformedRow value.kindName := by
  rw [line, map_eq_error_iff, Row.ofImage_eq_error_iff]

/-- An image that fits has a line. -/
theorem exists_line {image : Option Json} (h : Row.misfit? image = none) (isDeleted : Bool) :
    ∃ line, format.line image isDeleted = .ok line := by
  cases hline : format.line image isDeleted with
  | ok line => exact ⟨line, rfl⟩
  | error fault =>
    obtain ⟨value, hvalue, -⟩ := line_eq_error_iff.1 hline
    rw [h] at hvalue
    cases hvalue

/-- **The lines of an operation are at fault exactly if an image does not
fit**, and it is the first such image that is named. -/
theorem lines_eq_error_iff (hoperation : envelope.operation = some operation) :
    format.lines envelope operation = .error fault ↔
      ∃ value, format.misfit? envelope = some value ∧ fault = .malformedRow value.kindName := by
  unfold misfit? images
  rw [hoperation]
  cases operation with
  | read | create | delete =>
    simp only [List.findSome?_singleton]
    rw [lines, map_eq_error_iff, line_eq_error_iff]
  | unknown code => simp [lines]
  | update =>
    rw [lines, bind_eq_error_iff, line_eq_error_iff]
    cases hafter : Row.misfit? envelope.after with
    | some value =>
      -- the new image is read first, so a misfit there is the one that counts
      have hnone : ∀ inserted, format.line envelope.after false ≠ .ok inserted := by
        intro inserted hinserted
        rw [line_eq_error_iff.2 ⟨value, hafter, rfl⟩] at hinserted
        cases hinserted
      cases format.afterOnly <;> simp [hafter, hnone]
    | none =>
      obtain ⟨inserted, hinserted⟩ : ∃ inserted, format.line envelope.after false = .ok inserted :=
        exists_line hafter false
      cases format.afterOnly with
      | true => simp [hafter, hinserted, pure, Except.pure]
      | false =>
        have htwo : [envelope.after, envelope.before].findSome? Row.misfit? =
            Row.misfit? envelope.before := by
          rw [List.findSome?_cons, hafter]
          exact List.findSome?_singleton
        simp [htwo, hinserted, bind_eq_error_iff, line_eq_error_iff, pure, Except.pure]

/-- Only an operation that is unknown has no lines. -/
theorem exists_unknown_of_lines (h : format.lines envelope operation = .ok none) :
    ∃ code, operation = .unknown code := by
  have hone : ∀ image isDeleted, (format.line image isDeleted).map some ≠ .ok none := by
    intro image isDeleted hnone
    obtain ⟨line, -, hsome⟩ := map_eq_ok_iff.1 hnone
    cases hsome
  cases operation with
  | unknown code => exact ⟨code, rfl⟩
  | read => exact absurd h (hone _ _)
  | create => exact absurd h (hone _ _)
  | delete => exact absurd h (hone _ _)
  | update =>
    obtain ⟨inserted, -, hrest⟩ := bind_eq_ok_iff.1 h
    split at hrest
    · cases hrest
    · obtain ⟨deleted, -, hlines⟩ := bind_eq_ok_iff.1 hrest
      cases hlines

/-- **The lines of an operation depend on the images that it uses**, and on
nothing else of the envelope. -/
theorem lines_congr (hoperation : envelope.operation = some operation)
    (hsame : other.operation = envelope.operation)
    (himages : format.images other = format.images envelope) :
    format.lines other operation = format.lines envelope operation := by
  unfold images at himages
  rw [hsame, hoperation] at himages
  cases operation with
  | read | create | delete =>
    simp only [List.cons.injEq, and_true] at himages
    simp only [lines, himages]
  | unknown code => rfl
  | update =>
    cases hone : format.afterOnly with
    | true =>
      simp only [hone, if_true, List.cons.injEq, and_true] at himages
      simp only [lines, hone, if_true, himages]
    | false =>
      simp only [hone, Bool.false_eq_true, if_false, List.cons.injEq, and_true] at himages
      simp only [lines, himages]

end RowFormat

namespace LoadRecord

variable {routing : Routing} {format : RowFormat} {envelope other : Envelope} {fault : Fault}

/-- **An envelope that is dropped**: it is no row change, its table goes
nowhere, or its operation is unknown. -/
def IsDropped (routing : Routing) (envelope : Envelope) : Prop :=
  envelope.operation = none ∨ routing.target? envelope.source.identity = none ∨
    ∃ code, envelope.operation = some (.unknown code)

/-- Any other envelope has a target and an operation that is known. -/
theorem exists_of_not_isDropped (h : ¬ IsDropped routing envelope) :
    ∃ operation target, envelope.operation = some operation ∧
      routing.target? envelope.source.identity = some target ∧
      ∀ code, operation ≠ .unknown code := by
  rw [IsDropped, not_or, not_or] at h
  obtain ⟨hoperation, htarget, hknown⟩ := h
  obtain ⟨operation, hoperation⟩ := Option.ne_none_iff_exists'.1 hoperation
  obtain ⟨target, htarget⟩ := Option.ne_none_iff_exists'.1 htarget
  refine ⟨operation, target, hoperation, htarget, ?_⟩
  rintro code rfl
  exact hknown ⟨code, hoperation⟩

/-- An envelope that is not dropped has the record of its lines. -/
theorem ofEnvelope_eq_map {operation : RowOperation} {target : Text}
    (hoperation : envelope.operation = some operation)
    (htarget : routing.target? envelope.source.identity = some target) :
    ofEnvelope routing format envelope =
      (format.lines envelope operation).map fun lines => lines.map fun payload =>
        ⟨target, payload⟩ := by
  rw [ofEnvelope, hoperation, htarget]

/-- **What is dropped has no record and no fault.** -/
theorem ofEnvelope_of_isDropped (h : IsDropped routing envelope) :
    ofEnvelope routing format envelope = .ok none := by
  unfold ofEnvelope
  rcases h with hoperation | htarget | ⟨code, hoperation⟩
  · rw [hoperation]
  · rw [htarget]
    cases envelope.operation <;> rfl
  · rw [hoperation]
    cases routing.target? envelope.source.identity <;> rfl

/-- **What is not dropped is at fault exactly if an image does not fit.** -/
theorem ofEnvelope_eq_error_iff :
    ofEnvelope routing format envelope = .error fault ↔
      ¬ IsDropped routing envelope ∧
        ∃ value, format.misfit? envelope = some value ∧ fault = .malformedRow value.kindName := by
  by_cases hdropped : IsDropped routing envelope
  · simp [ofEnvelope_of_isDropped hdropped, hdropped]
  · obtain ⟨operation, target, hoperation, htarget, -⟩ := exists_of_not_isDropped hdropped
    rw [ofEnvelope_eq_map hoperation htarget, map_eq_error_iff,
      RowFormat.lines_eq_error_iff hoperation]
    exact (and_iff_right hdropped).symm

/-- No fault of a row is that of a payload. -/
theorem ofEnvelope_ne_malformedPayload (routing : Routing) (format : RowFormat)
    (envelope : Envelope) : ofEnvelope routing format envelope ≠ .error .malformedPayload := by
  intro h
  obtain ⟨-, value, -, hfault⟩ := ofEnvelope_eq_error_iff.1 h
  cases hfault

theorem ofEnvelope_eq_ok_none_iff :
    ofEnvelope routing format envelope = .ok none ↔ IsDropped routing envelope := by
  refine ⟨fun h => ?_, ofEnvelope_of_isDropped⟩
  by_contra hdropped
  obtain ⟨operation, target, hoperation, htarget, hknown⟩ := exists_of_not_isDropped hdropped
  rw [ofEnvelope_eq_map hoperation htarget] at h
  obtain ⟨lines, hlines, hnone⟩ := map_eq_ok_iff.1 h
  rw [Option.map_eq_none_iff.1 hnone] at hlines
  obtain ⟨code, hcode⟩ := RowFormat.exists_unknown_of_lines hlines
  exact hknown code hcode

/-- **The outcome reads the images that are used**, with the operation and
the source. -/
theorem ofEnvelope_congr (hoperation : other.operation = envelope.operation)
    (hsource : other.source = envelope.source)
    (himages : format.images other = format.images envelope) :
    ofEnvelope routing format other = ofEnvelope routing format envelope := by
  unfold ofEnvelope
  rw [hoperation, hsource]
  cases hsome : envelope.operation with
  | none => rfl
  | some operation =>
    have hlines := RowFormat.lines_congr hsome hoperation himages
    cases routing.target? envelope.source.identity with
    | none => rfl
    | some target => simp only [hlines]

/-- There is a fault exactly if one of the images that are used does not fit. -/
theorem exists_fault_iff :
    (∃ fault, ofEnvelope routing format envelope = .error fault) ↔
      ¬ IsDropped routing envelope ∧
        ∃ value, some value ∈ format.images envelope ∧ value.isColumns = false := by
  rw [← RowFormat.exists_misfit?_iff]
  constructor
  · rintro ⟨fault, hfault⟩
    obtain ⟨hdropped, value, hvalue, -⟩ := ofEnvelope_eq_error_iff.1 hfault
    exact ⟨hdropped, value, hvalue⟩
  · rintro ⟨hdropped, value, hvalue⟩
    exact ⟨_, ofEnvelope_eq_error_iff.2 ⟨hdropped, value, hvalue, rfl⟩⟩

/-- **There is a record exactly if they all fit**: the outcomes exclude one
another, so it is what the other two leave. -/
theorem exists_record_iff :
    (∃ record, ofEnvelope routing format envelope = .ok (some record)) ↔
      ¬ IsDropped routing envelope ∧
        ∀ value, some value ∈ format.images envelope → value.isColumns = true := by
  constructor
  · rintro ⟨record, hrecord⟩
    have hkept : ¬ IsDropped routing envelope := by
      intro hdropped
      rw [ofEnvelope_of_isDropped hdropped] at hrecord
      cases hrecord
    refine ⟨hkept, fun value himage => ?_⟩
    by_contra hcolumns
    obtain ⟨fault, hfault⟩ := exists_fault_iff.2 ⟨hkept, value, himage, by simpa using hcolumns⟩
    rw [hrecord] at hfault
    cases hfault
  · rintro ⟨hkept, hfit⟩
    cases houtcome : ofEnvelope routing format envelope with
    | error fault =>
      obtain ⟨-, value, himage, hcolumns⟩ := exists_fault_iff.1 ⟨fault, houtcome⟩
      rw [hfit value himage] at hcolumns
      cases hcolumns
    | ok found =>
      cases found with
      | none => exact absurd (ofEnvelope_eq_ok_none_iff.1 houtcome) hkept
      | some record => exact ⟨record, rfl⟩

/-- **The outcome is decided by the images that are used.** An envelope has
no record and no fault exactly if it is dropped. Any other is at fault
exactly if one of the images that its operation uses is neither an object
nor `null`, and the fault names the kind of the first such; if there is none
it has a record. So two envelopes of one operation and one source have the
same outcome if they agree on those images, whatever else they carry. -/
theorem outcome_of_images (routing : Routing) (format : RowFormat) (envelope : Envelope) :
    (ofEnvelope routing format envelope = .ok none ↔ IsDropped routing envelope) ∧
    ((∃ fault, ofEnvelope routing format envelope = .error fault) ↔
      ¬ IsDropped routing envelope ∧
        ∃ value, some value ∈ format.images envelope ∧ value.isColumns = false) ∧
    (∀ fault, ofEnvelope routing format envelope = .error fault →
      ∃ value, format.misfit? envelope = some value ∧ fault = .malformedRow value.kindName) ∧
    ((∃ record, ofEnvelope routing format envelope = .ok (some record)) ↔
      ¬ IsDropped routing envelope ∧
        ∀ value, some value ∈ format.images envelope → value.isColumns = true) ∧
    ∀ other : Envelope, other.operation = envelope.operation → other.source = envelope.source →
      format.images other = format.images envelope →
      ofEnvelope routing format other = ofEnvelope routing format envelope := by
  refine ⟨ofEnvelope_eq_ok_none_iff, exists_fault_iff, fun fault hfault => ?_, exists_record_iff,
    fun other hoperation hsource himages => ofEnvelope_congr hoperation hsource himages⟩
  obtain ⟨-, hmisfit⟩ := ofEnvelope_eq_error_iff.1 hfault
  exact hmisfit

/-- An update whose old image is a number is at fault as a whole, and with the
new image alone it has a record, for which the old one may as well be absent. -/
theorem outcome_of_images_update :
    let routing : Routing := ⟨some "shop.orders".toList, []⟩
    let envelope : Envelope := ⟨some .update, ⟨none, none, none⟩, some (.number ['1']),
      some (.object []), none⟩
    (∃ fault, ofEnvelope routing {} envelope = .error fault) ∧
      (∃ record, ofEnvelope routing { afterOnly := true } envelope = .ok (some record)) ∧
      ofEnvelope routing { afterOnly := true } { envelope with before := none } =
        ofEnvelope routing { afterOnly := true } envelope := by
  intro routing envelope
  have hkept : ¬ IsDropped routing envelope := by
    rintro (hoperation | htarget | ⟨code, hoperation⟩)
    · cases hoperation
    · cases htarget
    · cases hoperation
  obtain ⟨-, hfault, -⟩ := outcome_of_images routing {} envelope
  obtain ⟨-, -, -, hrecord, hsame⟩ := outcome_of_images routing { afterOnly := true } envelope
  refine ⟨hfault.2 ⟨hkept, .number ['1'], by simp [RowFormat.images, envelope], rfl⟩,
    hrecord.2 ⟨hkept, ?_⟩, hsame _ rfl rfl rfl⟩
  intro value himage
  simp only [RowFormat.images, envelope, if_true, List.mem_singleton, Option.some.injEq] at himage
  rw [himage]
  rfl

end LoadRecord

end ChangeFeed
