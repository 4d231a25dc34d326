import Mathlib
import OData.Proofs.Filter.Compilation

namespace OData

/-- A filter compiles exactly when every site keeps its rule, and otherwise fails with the error of
the first site that does not. The verdict on a part of a filter is that on its own sites, and these
depend on nothing but whether a lambda body surrounds the part and whether a path is open there. -/
theorem Filter.compile_verdict (filter : Filter) :
    ((∃ text, filter.compile = .ok text) ↔ ∀ site ∈ filter.sites .top, site.Allowed) ∧
    (∀ error, filter.compile = .error error ↔
      ∃ before site after, filter.sites .top = before ++ site :: after ∧
        (∀ other ∈ before, other.Allowed) ∧ ¬ site.Allowed ∧ error = site.error) ∧
    ∀ place joint, (filter.compileAt place joint).map (fun _ => ()) =
      FilterSite.checkAll (filter.sites place.context) := by
  have whole := filter.compile_checks
  refine ⟨?accepted, ?refused, ?part⟩
  case accepted =>
    constructor
    · rintro ⟨text, run⟩
      exact (whole.eq_ok_iff.mp run).1
    · intro allowed
      exact ⟨_, whole.eq_ok_iff.mpr ⟨allowed, rfl⟩⟩
  case refused =>
    intro error
    rw [whole.eq_error_iff]
    exact FilterSite.checkAll_error_iff
  case part =>
    intro place joint
    rw [filter.compileAt_checks place joint]
    cases FilterSite.checkAll (filter.sites place.context) <;> rfl

/-- Inside the lambda body one property may stand in another one; behind it that is refused again. -/
theorem Filter.compile_verdict_behind_lambda :
    Filter.compile (.object [
      .operation (.lambda .any "x" (.ofProperty "a" (.ofProperty "b" (.value (.bool true))))),
      .property "c" (.object [.operation (.within (.list [.ofProperty "d" (.value .null)]))]),
      .operation (.compare .eq (.object []))]) = .error (.removed .nestedNavigation) := by
  refine ((Filter.compile_verdict _).2.1 _).mpr ⟨[.property .lambdaBody,
    .property ⟨true, true⟩, .property .top, .list 1 [.ofProperty "d" (.value .null)]],
    .property ⟨false, true⟩, [.comparison .eq []], rfl, ?earlier, by decide, rfl⟩
  intro other member
  simp only [List.mem_cons, List.not_mem_nil, or_false] at member
  rcases member with rfl | rfl | rfl | rfl <;> decide

end OData
