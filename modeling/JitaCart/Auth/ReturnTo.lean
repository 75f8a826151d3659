/- module: JitaCart/Auth/ReturnTo
   source: backend/crates/api/src/auth.rs (safe_return_to, callback)
   digest: Which return paths pass the filter of a login, and where a browser goes with them. -/

import JitaCart.Api.Transaction
import JitaCart.Base.Strings

set_option autoImplicit false
set_option relaxedAutoImplicit false

namespace JitaCart.Auth.ReturnTo

open Base.Strings
open Api.Transaction (isHeaderValue)

/-- The conditions of the filter, in their order. -/
def isSafe (path : Text) : Bool :=
  ['/'].isPrefixOf path && !(['/', '/'].isPrefixOf path) && !path.contains '\\' &&
    !path.any fun c => c == '\r' || c == '\n'

def safeReturnTo (returnTo : Option Text) : Option Text := do
  let path ← returnTo
  if isSafe path then some path else none

/-- What a finished login gives to `Redirect::to`. -/
def callbackLocation (pendingReturnTo : Option Text) : Text :=
  (safeReturnTo pendingReturnTo).getD "/me".toList

/-- The `Location` of its answer: the 500 for a location that is no header value has none. -/
def sentLocation (pendingReturnTo : Option Text) : Option Text :=
  some (callbackLocation pendingReturnTo) |>.filter isHeaderValue

/-- Tabs and line ends are removed first, wherever they stand. -/
def isRemoved (c : Char) : Bool := c == '\t' || c == '\n' || c == '\r'

/-- A reference as the URL parser reads it on an http or https base. -/
def browserText (t : Text) : Text := replaceChar '\\' '/' (t.filter fun c => !isRemoved c)

/-- One slash starts a path of the same origin, two start another authority. -/
def StaysOnOrigin (t : Text) : Prop :=
  ∃ path, browserText t = '/' :: path ∧ path.head? ≠ some '/'

/-- Two slashes with nothing but tabs between them, at least one, at the start. -/
def TabbedSlashes (t : Text) : Prop :=
  ∃ tabs rest, tabs ≠ [] ∧ (∀ c ∈ tabs, c = '\t') ∧ t = '/' :: (tabs ++ '/' :: rest)

private theorem isSafe_iff {t : Text} :
    isSafe t = true ↔ ∃ path, t = '/' :: path ∧ path.head? ≠ some '/' ∧ '\\' ∉ path ∧
      '\r' ∉ path ∧ '\n' ∉ path := by
  unfold isSafe
  constructor
  · intro h
    simp only [Bool.and_eq_true, Bool.not_eq_true', List.isPrefixOf_iff_prefix,
      List.contains_eq_mem, decide_eq_false_iff_not, List.any_eq_false, Bool.or_eq_true,
      beq_iff_eq] at h
    obtain ⟨⟨⟨slash, double⟩, back⟩, ends⟩ := h
    obtain ⟨path, rfl⟩ := slash
    refine ⟨path, rfl, fun again => ?_, fun h => back (List.mem_cons_of_mem _ h),
      fun h => ends '\r' (List.mem_cons_of_mem _ h) (.inl rfl),
      fun h => ends '\n' (List.mem_cons_of_mem _ h) (.inr rfl)⟩
    obtain ⟨rest, rfl⟩ := List.head?_eq_some_iff.mp again
    simp at double
  · rintro ⟨path, rfl, single, back, cr, lf⟩
    have second : ¬ ['/'] <+: path := by
      rintro ⟨rest, rfl⟩
      exact single rfl
    simp only [Bool.and_eq_true, Bool.not_eq_true', List.contains_eq_mem, decide_eq_false_iff_not,
      List.any_eq_false, Bool.or_eq_true, beq_iff_eq]
    refine ⟨⟨⟨rfl, ?_⟩, ?_⟩, ?_⟩
    · rw [← Bool.not_eq_true, List.isPrefixOf_iff_prefix]
      exact fun h => second ((List.cons_prefix_cons.mp h).2)
    · exact fun h => (List.mem_cons.mp h).elim (by decide) back
    · intro c hc ends
      rcases List.mem_cons.mp hc with rfl | hc
      · exact absurd ends (by decide)
      · exact ends.elim (fun h => cr (h ▸ hc)) fun h => lf (h ▸ hc)

private theorem safeReturnTo_eq_some {t : Text} :
    safeReturnTo (some t) = some t ↔ isSafe t = true := by
  unfold safeReturnTo
  simp

private theorem head?_browserText {path : Text} (back : '\\' ∉ path) (cr : '\r' ∉ path)
    (lf : '\n' ∉ path) :
    (browserText path).head? = (path.dropWhile fun c => c == '\t').head? := by
  induction path with
  | nil => rfl
  | cons c path ih =>
    rw [List.mem_cons, not_or] at back cr lf
    unfold browserText at ih ⊢
    by_cases tab : c = '\t'
    · subst tab
      rw [List.filter_cons_of_neg (by decide), List.dropWhile_cons_of_pos (by decide)]
      exact ih back.2 cr.2 lf.2
    · have stays : (!isRemoved c) = true := by
        simp [isRemoved, tab, Ne.symm cr.1, Ne.symm lf.1]
      rw [@List.filter_cons_of_pos _ (fun c => !isRemoved c) c path stays,
        List.dropWhile_cons_of_neg (by simpa using tab)]
      simp [replaceChar, Ne.symm back.1]

private theorem tabbedSlashes_cons {path : Text} (single : path.head? ≠ some '/') :
    TabbedSlashes ('/' :: path) ↔ (path.dropWhile fun c => c == '\t').head? = some '/' := by
  constructor
  · rintro ⟨tabs, rest, -, all, same⟩
    obtain rfl := (List.cons.inj same).2
    have gone : (tabs ++ '/' :: rest).dropWhile (fun c => c == '\t') =
        ('/' :: rest).dropWhile fun c => c == '\t' :=
      List.dropWhile_append_of_pos fun c hc => by simpa using all c hc
    rw [gone]
    rfl
  · intro slash
    obtain ⟨rest, found⟩ := List.head?_eq_some_iff.mp slash
    refine ⟨path.takeWhile fun c => c == '\t', rest, fun missing => ?_, fun c hc => ?_, ?_⟩
    · have whole := List.takeWhile_append_dropWhile (p := fun c => c == '\t') (l := path)
      rw [missing, found, List.nil_append] at whole
      exact single (whole ▸ rfl)
    · simpa using List.mem_takeWhile_imp hc
    · rw [← found, List.takeWhile_append_dropWhile]

private theorem staysOnOrigin_iff {t : Text} (safe : isSafe t = true) :
    StaysOnOrigin t ↔ ¬ TabbedSlashes t := by
  obtain ⟨path, rfl, single, back, cr, lf⟩ := isSafe_iff.mp safe
  have cons : browserText ('/' :: path) = '/' :: browserText path := by
    unfold browserText
    rw [List.filter_cons_of_pos (by decide)]
    rfl
  rw [tabbedSlashes_cons single, ← head?_browserText back cr lf]
  unfold StaysOnOrigin
  rw [cons]
  constructor
  · rintro ⟨rest, same, other⟩
    rw [(List.cons.inj same).2]
    exact other
  · exact fun other => ⟨_, rfl, other⟩

private theorem callbackLocation_eq (pending : Option Text) :
    (∃ t, pending = some t ∧ isSafe t = true ∧ callbackLocation pending = t) ∨
      (∀ t ∈ pending, isSafe t = false) ∧ callbackLocation pending = "/me".toList := by
  unfold callbackLocation
  cases pending with
  | none => exact .inr ⟨fun t ht => (nomatch ht), rfl⟩
  | some t =>
    cases safe : isSafe t with
    | true => exact .inl ⟨t, rfl, safe, by rw [safeReturnTo_eq_some.mpr safe]; rfl⟩
    | false =>
      refine .inr ⟨fun x hx => ?_, by simp [safeReturnTo, safe]⟩
      obtain rfl := Option.some.inj hx
      exact safe

private theorem staysOnOrigin_callback (pending : Option Text) :
    StaysOnOrigin (callbackLocation pending) ↔
      ∀ t ∈ pending, safeReturnTo (some t) = some t → ¬ TabbedSlashes t := by
  rcases callbackLocation_eq pending with ⟨t, rfl, safe, location⟩ | ⟨refused, location⟩
  · rw [location, staysOnOrigin_iff safe]
    refine ⟨fun h x hx _ => ?_, fun h => h t rfl (safeReturnTo_eq_some.mpr safe)⟩
    obtain rfl := Option.some.inj hx
    exact h
  · have home : StaysOnOrigin "/me".toList := ⟨"me".toList, by decide, by decide⟩
    rw [location]
    refine iff_of_true home fun t ht accepted => ?_
    cases (refused t ht).symm.trans (safeReturnTo_eq_some.mp accepted)

/-- Of the paths that the filter accepts, those leave the origin in which only tabs stand between
two slashes at the start. A `Location` is sent for those that are header values. -/
theorem safe_path_stays_iff (t : Text) (pending : Option Text) :
    (safeReturnTo (some t) = some t → (StaysOnOrigin t ↔ ¬ TabbedSlashes t)) ∧
    (StaysOnOrigin (callbackLocation pending) ↔
      ∀ t ∈ pending, safeReturnTo (some t) = some t → ¬ TabbedSlashes t) ∧
    ((∀ location ∈ sentLocation pending, StaysOnOrigin location) ↔
      ∀ t ∈ pending, safeReturnTo (some t) = some t → isHeaderValue t = true →
        ¬ TabbedSlashes t) := by
  refine ⟨fun accepted => staysOnOrigin_iff (safeReturnTo_eq_some.mp accepted),
    staysOnOrigin_callback pending, ?_⟩
  have sent (location : Text) : location ∈ sentLocation pending ↔
      callbackLocation pending = location ∧ isHeaderValue location = true := by
    simp [sentLocation, Option.filter_eq_some_iff]
  constructor
  · intro stays t ht accepted header tabbed
    have location : callbackLocation pending = t := by
      obtain rfl := Option.mem_def.mp ht
      rw [callbackLocation, accepted]
      rfl
    exact (staysOnOrigin_iff (safeReturnTo_eq_some.mp accepted)).mp
      (stays t ((sent t).mpr ⟨location, header⟩)) tabbed
  · intro free location hl
    obtain ⟨rfl, header⟩ := (sent location).mp hl
    refine (staysOnOrigin_callback pending).mpr fun t ht accepted => free t ht accepted ?_
    rcases callbackLocation_eq pending with ⟨x, rfl, -, location⟩ | ⟨refused, -⟩
    · obtain rfl := Option.some.inj ht
      exact location ▸ header
    · cases (refused t ht).symm.trans (safeReturnTo_eq_some.mp accepted)

theorem safe_path_stays_groups :
    StaysOnOrigin "/groups/abc".toList ∧
    ¬ StaysOnOrigin (callbackLocation (some "/\t/evil.com".toList)) := by
  obtain ⟨accepted, location, -⟩ :=
    safe_path_stays_iff "/groups/abc".toList (some "/\t/evil.com".toList)
  refine ⟨(accepted (by decide)).mpr ?_, fun stays => ?_⟩
  · rintro ⟨tabs, rest, some_tab, all, same⟩
    cases tabs with
    | nil => exact some_tab rfl
    | cons c tabs =>
      obtain rfl := all c List.mem_cons_self
      cases same
  · exact location.mp stays _ rfl (by decide)
      ⟨['\t'], "evil.com".toList, by decide, fun _ h => List.mem_singleton.mp h, by decide⟩

/-- A tab between two slashes passes the filter, and the browser reads two slashes. -/
theorem tabbed_path_leaves_origin :
    ¬ ∀ t, safeReturnTo (some t) = some t → StaysOnOrigin t := by
  intro claim
  obtain ⟨path, same, single⟩ := claim "/\t/evil.com".toList (by decide)
  have double : browserText "/\t/evil.com".toList = '/' :: "/evil.com".toList := by decide
  obtain rfl := (List.cons.inj (double.symm.trans same)).2
  exact single rfl

end JitaCart.Auth.ReturnTo
