import Rehoming.Proofs.Placement.Contents

/-! Runs with different encoders. Which brigades are placed where, and so which calls are made, has
nothing to do with what encoding gives. Main statement: two such runs make the same calls, and each
plan holds what its own encoder answered to them; so a failure costs the brigade that it is about,
and nothing else. -/

namespace Rehoming

/-- Where an encoder differs from another only by failing, a node gains what the other gives for
the calls that are left. -/
theorem EncodeCall.gained_of_fewer {encode encode' : SlotEncoder} {calls : List EncodeCall}
    (fewer : ∀ c ∈ calls, encode' c = encode c ∨ ∃ e, encode' c = .error e) (node : Nat) :
    gained encode' node calls = gained encode node (calls.filter fun c => (encode' c).isOk) := by
  rw [gained, gained, List.filterMap_filter]
  refine List.filterMap_congr fun c hc => ?_
  cases answer : encode' c with
  | error e => simp [Except.toOption, Except.isOk, Except.toBool]
  | ok s =>
    rcases fewer c hc with same | ⟨e, failed⟩
    · rw [← same, answer]
      simp [Except.isOk, Except.toBool]
    · rw [failed] at answer
      cases answer

/-- **A failure to encode costs one brigade.** If a run makes a plan with one encoder, it makes
one with any other. Both runs make the same calls in the same order, and each plan holds, node by
node and in the order of the calls, what its own encoder answered to them; nodes that gain nothing
are left out. Where the other encoder only fails more often, its plan lacks what those calls
gave, and all else stands where it stood. -/
theorem buildPlan_same_calls {t : Topology} {realmFingerprint : String} {options : PlanOptions}
    {encode : SlotEncoder} {brigades : List Brigade} {plan : RestorePlan}
    (run : (buildPlan t realmFingerprint options encode brigades).result = .ok plan)
    (encode' : SlotEncoder) :
    ∃ calls plan',
      (buildPlan t realmFingerprint options encode' brigades).result = .ok plan' ∧
      Progress.plan t encode realmFingerprint options brigades =
        (calls, buildPlan t realmFingerprint options encode brigades) ∧
      Progress.plan t encode' realmFingerprint options brigades =
        (calls, buildPlan t realmFingerprint options encode' brigades) ∧
      plan = .serving t realmFingerprint (fun k _ => EncodeCall.gained encode k calls) ∧
      plan' = .serving t realmFingerprint (fun k _ => EncodeCall.gained encode' k calls) ∧
      ((∀ c ∈ calls, encode' c = encode c ∨ ∃ e, encode' c = .error e) → ∀ k,
        EncodeCall.gained encode' k calls =
          EncodeCall.gained encode k (calls.filter fun c => (encode' c).isOk)) := by
  obtain ⟨done, served⟩ := buildPlan_ok_iff.mp run
  have calls (encoder : SlotEncoder) :
      (Progress.plan t encoder realmFingerprint options brigades).1 =
        (Assignment.make t options.mode options.policy options.pins brigades).calls t := by
    rw [Progress.plan_eq]
  exact ⟨_, _, buildPlan_ok_iff.mpr ⟨done, rfl⟩, Prod.ext (calls encode) rfl,
    Prod.ext (calls encode') rfl, served, rfl, EncodeCall.gained_of_fewer⟩

/-- Two brigades for one address: where the first one cannot be encoded, the second one is
refused all the same, and the address stays empty. -/
theorem buildPlan_same_calls_refused :
    let a (d : UInt8) : Ipv4 := ⟨10, 0, 0, d⟩
    let t : Topology := ⟨"r", [⟨"n0", default, [a 5, a 6]⟩, ⟨"n1", default, [a 5]⟩]⟩
    let options : PlanOptions := ⟨.mirrored, .skip, .none⟩
    let brigades : List Brigade := [.named "x" (a 5), .named "y" (a 5), .named "z" (a 6)]
    let encode : SlotEncoder := fun c => .ok c.stub
    let encode' : SlotEncoder := fun c =>
      if c.brigade.id = "x" then .error (.decryptionFailed "") else .ok c.stub
    let result (encode : SlotEncoder) := (buildPlan t "f" options encode brigades).result
    result encode =
        .ok ⟨"r", "f", [⟨"n0", [⟨"x", a 5, [""], "", ""⟩, ⟨"z", a 6, [""], "", ""⟩]⟩]⟩ ∧
      result encode' = .ok ⟨"r", "f", [⟨"n0", [⟨"z", a 6, [""], "", ""⟩]⟩]⟩ ∧
      (Progress.plan t encode "f" options brigades).1 =
        (Progress.plan t encode' "f" options brigades).1 := by
  intro a t options brigades encode encode' result
  have run : result encode =
      .ok ⟨"r", "f", [⟨"n0", [⟨"x", a 5, [""], "", ""⟩, ⟨"z", a 6, [""], "", ""⟩]⟩]⟩ := by decide
  obtain ⟨calls, plan', -, calls_eq, calls_eq', -⟩ := buildPlan_same_calls run encode'
  exact ⟨run, by decide, by rw [calls_eq, calls_eq']⟩

end Rehoming
