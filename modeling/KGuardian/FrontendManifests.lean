import KGuardian.CiliumYaml
import KGuardian.PolicyYaml

/-!
The manifests that the frontend shows for its policies. A value is quoted when it has a
special character, and only then, so a text that means null, a truth value or a number to
YAML is not the same text for who applies the manifest.
-/
namespace KGuardian.FrontendManifests

open BlockYaml ManifestText PlainScalars PolicyEditor PolicyYaml Selectors WrittenManifests
open CiliumYaml (ciliumPolicyToYAML)
open FrontendCilium (CiliumNetworkPolicy)

/-- A pod that is labelled with a truth value. -/
def canaryLabels : Labels := Labels.ofList [("canary", "true")]

def canaryPolicy : ShownPolicy where
  apiVersion := "networking.k8s.io/v1"
  kind := "NetworkPolicy"
  name := "api-policy"
  ns := "shop"
  podSelector := canaryLabels
  policyTypes := [.ingress]
  ingress := some [⟨"r1", [⟨none, none, some ⟨"10.0.0.7/32", none⟩⟩], [⟨"TCP", .int 8080⟩]⟩]
  egress := none
  typed := fun _ htype => .inl (List.mem_singleton.mp htype)

def canaryCiliumPolicy : CiliumNetworkPolicy where
  apiVersion := "cilium.io/v2"
  kind := "CiliumNetworkPolicy"
  name := "api-cilium-policy"
  ns := "shop"
  endpointSelector := canaryLabels
  ingress := some [⟨"r1", none, some ["10.0.0.7/32"], some [[⟨"8080", "TCP"⟩]]⟩]
  egress := none
  defaultDeny := ⟨true, false⟩

/-- The value is read as a truth value. -/
theorem not_ok_true : ¬ Text.Ok yaml11 (.value "true") := by
  rintro ⟨-, hspecial | ⟨-, hstr⟩⟩
  · exact absurd hspecial (by decide)
  · exact absurd hstr (by decide)

theorem mem_canaryTexts : Text.value "true" ∈ labelTexts canaryLabels := by
  have hentries : canaryLabels.entries = [⟨"canary", "true"⟩] := rfl
  rw [labelTexts, hentries]
  exact List.mem_cons_of_mem _ List.mem_cons_self

end KGuardian.FrontendManifests
