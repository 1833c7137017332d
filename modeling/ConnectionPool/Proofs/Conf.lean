import Mathlib
import ConnectionPool.Conf.Node
import ConnectionPool.Proofs.Yaml.Decoding

namespace ConnectionPool

open Yaml

/-- The host was made from a name, perhaps a port and a scheme, and its port is one. -/
structure Host.Fits (h : Host) : Prop where
  made : ∃ name port scheme, h = Host.make name port scheme
  port_lt : h.port < Nat.pow 2 16

structure Route.Fits (r : Route) : Prop where
  target : r.target.Fits
  proxies : ∀ p ∈ r.proxies, p.Fits

structure RouteLimit.Fits (l : RouteLimit) : Prop where
  route : l.route.Fits
  max_lt : l.max < Conf.bound

structure Conf.Fits (c : Conf) : Prop where
  version_lt : c.version < bound
  maxTotal_lt : c.maxTotal < bound
  defaultMaxPerRoute_lt : c.defaultMaxPerRoute < bound
  perRoute : ∀ l ∈ c.perRoute, l.Fits
  timeToLive_lt : ∀ t ∈ c.timeToLive, t < bound
  defaultKeepalive_lt : ∀ t ∈ c.defaultKeepalive, t < bound
  validateAfterInactivity_lt : ∀ t ∈ c.validateAfterInactivity, t < bound

namespace Host

theorem Fits.make_eq {h : Host} (hh : h.Fits) : Host.make h.hostname (some h.port) h.scheme = h := by
  obtain ⟨name, port, scheme, rfl⟩ := hh.made
  have hname : (name.map Char.toLower).map Char.toLower = name.map Char.toLower :=
    String.toList_inj.1 (by simp)
  simp [Host.make, hname]

theorem gives_decode {h : Host} (hh : h.Fits) : Decoder.Gives Host.decode h.toNode h := by
  intro a
  have hport : Decoder.Gives (Decoder.optional (Decoder.natural (Nat.pow 2 16))) (.ofNat h.port)
      (some h.port) :=
    Decoder.gives_optional (o := some h.port) (by
      rintro n ⟨rfl⟩
      exact Decoder.gives_natural (by decide) hh.port_lt)
  have hscheme : Decoder.Gives Scheme.decode (.ofText h.scheme.name) h.scheme :=
    Decoder.gives_oneOf (Scheme.ofName?_name h.scheme)
  rw [Host.decode, Host.toNode, Decoder.bind_eq (Decoder.gives_fields (by simp) (by simp) a),
    Decoder.bind_eq (Decoder.field_eq (by simp [List.lookup]) (Decoder.gives_text h.hostname) a),
    Decoder.bind_eq (Decoder.field?_eq (by simp [List.lookup]) hport a),
    Decoder.bind_eq (Decoder.field?_eq (by simp [List.lookup]) hscheme a)]
  simp only [Option.getD_some, hh.make_eq]
  rfl

theorem written_fields (h : Host) : ∀ f ∈ [("hostname", Node.ofText h.hostname), ("port", .ofNat h.port),
    ("scheme", .ofText h.scheme.name)], Lexer.IsKey f.1.toList ∧ f.2.Written := by
  simp only [List.forall_mem_cons]
  exact ⟨⟨by decide, .ofText _⟩, ⟨by decide, .ofNat _⟩, ⟨by decide, .ofText _⟩, nofun⟩

theorem written (h : Host) : h.toNode.Written :=
  .record (by simp) (fun f hf => (h.written_fields f hf).1) fun f hf => (h.written_fields f hf).2

theorem written_list (hs : List Host) : Node.Written (.list (hs.map Host.toNode)) :=
  .ofList (by simp) (fun h _ f hf => (h.written_fields f hf).1) fun h _ f hf => (h.written_fields f hf).2

end Host

namespace Route

theorem gives_decode {r : Route} (hr : r.Fits) : Decoder.Gives Route.decode r.toNode r := by
  intro a
  have hproxies : Decoder.Gives (Decoder.list Host.decode) (.list (r.proxies.map Host.toNode))
      r.proxies :=
    Decoder.gives_list fun p hp => Host.gives_decode (hr.proxies p hp)
  rw [Route.decode, Route.toNode, Decoder.bind_eq (Decoder.gives_fields (by simp) (by simp) a),
    Decoder.bind_eq (Decoder.field_eq (by simp [List.lookup]) (Host.gives_decode hr.target) a),
    Decoder.bind_eq (Decoder.field?_eq (by simp [List.lookup]) hproxies a),
    Decoder.bind_eq (Decoder.field?_eq (by simp [List.lookup]) (Decoder.gives_bool r.secure) a)]
  rfl

theorem written (r : Route) : r.toNode.Written := by
  refine .record (by simp) ?_ ?_
  · simp only [List.forall_mem_cons]
    exact ⟨by decide, by decide, by decide, nofun⟩
  · simp only [List.forall_mem_cons]
    exact ⟨r.target.written, Host.written_list _, .ofBool _, nofun⟩

end Route

namespace RouteLimit

theorem gives_decode {l : RouteLimit} (hl : l.Fits) : Decoder.Gives RouteLimit.decode l.toNode l := by
  intro a
  have hmax : Decoder.Gives (Decoder.natural Conf.bound) (.ofNat l.max) l.max :=
    Decoder.gives_natural (by decide) hl.max_lt
  rw [RouteLimit.decode, RouteLimit.toNode, Decoder.bind_eq (Decoder.gives_fields (by simp) (by simp) a),
    Decoder.bind_eq (Decoder.field_eq (by simp [List.lookup]) (Route.gives_decode hl.route) a),
    Decoder.bind_eq (Decoder.field_eq (by simp [List.lookup]) hmax a)]
  rfl

theorem written_list (ls : List RouteLimit) : Node.Written (.list (ls.map RouteLimit.toNode)) := by
  refine .ofList (by simp) (fun l _ => ?_) fun l _ => ?_
  · simp only [List.forall_mem_cons]
    exact ⟨by decide, by decide, nofun⟩
  · simp only [List.forall_mem_cons]
    exact ⟨l.route.written, .ofNat _, nofun⟩

end RouteLimit

namespace Conf

theorem gives_decode {c : Conf} (hc : c.Fits) : Decoder.Gives Conf.decode c.toNode c := by
  intro a
  have hnumber {n : Nat} (hn : n < bound) : Decoder.Gives (Decoder.natural bound) (.ofNat n) n :=
    Decoder.gives_natural (by decide) hn
  have htime {t : Option Nat} (ht : ∀ n ∈ t, n < bound) :
      Decoder.Gives (Decoder.optional (Decoder.natural bound)) (.ofOption .ofNat t) t :=
    Decoder.gives_optional fun n hn => hnumber (ht n hn)
  have hlimits : Decoder.Gives (Decoder.list RouteLimit.decode)
      (.list (c.perRoute.map RouteLimit.toNode)) c.perRoute :=
    Decoder.gives_list fun l hl => RouteLimit.gives_decode (hc.perRoute l hl)
  rw [Conf.decode, Conf.toNode, Decoder.bind_eq (Decoder.gives_fields (by simp) (by simp) a)]
  rw [Decoder.bind_eq (Decoder.field?_eq (by simp [List.lookup]) (hnumber hc.version_lt) a),
    Decoder.bind_eq (Decoder.field?_eq (by simp [List.lookup]) (hnumber hc.maxTotal_lt) a),
    Decoder.bind_eq (Decoder.field?_eq (by simp [List.lookup]) (hnumber hc.defaultMaxPerRoute_lt) a),
    Decoder.bind_eq (Decoder.field?_eq (by simp [List.lookup]) hlimits a),
    Decoder.bind_eq (Decoder.field?_eq (by simp [List.lookup]) (htime hc.timeToLive_lt) a),
    Decoder.bind_eq (Decoder.field?_eq (by simp [List.lookup]) (htime hc.defaultKeepalive_lt) a),
    Decoder.bind_eq (Decoder.field?_eq (by simp [List.lookup]) (htime hc.validateAfterInactivity_lt) a)]
  rfl

theorem parse_toYaml {f : Format} {c : Conf} (hf : f.Restores c.toNode) (hc : c.Fits) :
    parse (c.toYaml f) f = .ok c := by
  have hread : Conf.decode.ofText f (c.toYaml f) = .ok c :=
    Decoder.ofText_print hf (gives_decode hc)
  rw [parse, hread]

theorem validate_of_zero {c : Conf}
    (h : ¬ (0 < c.maxTotal ∧ 0 < c.defaultMaxPerRoute ∧ ∀ l ∈ c.perRoute, 0 < l.max)) :
    ∃ f, c.validate = .error f ∧ f.kind = .invalidArgument := by
  unfold validate
  split
  · exact ⟨_, rfl, rfl⟩
  split
  · exact ⟨_, rfl, rfl⟩
  split
  · exact ⟨_, rfl, rfl⟩
  · next hnone =>
    refine absurd ⟨by omega, by omega, fun l hl => ?_⟩ h
    have hmax := List.find?_eq_none.1 hnone l hl
    simp at hmax
    omega

/-- What is written of a configuration is read as it, with its limits in their order, its absent
times absent and its hosts as they are; and it is accepted if its limits are positive, and refused
as an argument otherwise.  All that is asked of the format is that it reads the tree that it wrote. -/
theorem ofYaml_toYaml {f : Format} {c : Conf} (hf : f.Restores c.toNode) (hc : c.Fits) :
    parse (c.toYaml f) f = .ok c ∧
      (0 < c.maxTotal ∧ 0 < c.defaultMaxPerRoute ∧ (∀ l ∈ c.perRoute, 0 < l.max) →
        ofYaml (c.toYaml f) f = .ok c) ∧
      (¬ (0 < c.maxTotal ∧ 0 < c.defaultMaxPerRoute ∧ ∀ l ∈ c.perRoute, 0 < l.max) →
        ∃ e, ofYaml (c.toYaml f) f = .error e ∧ e.kind = .invalidArgument) := by
  have hparse := parse_toYaml hf hc
  have hof : ofYaml (c.toYaml f) f = c.validate := by
    rw [ofYaml, hparse]
    rfl
  refine ⟨hparse, fun hpos => ?_, fun hzero => ?_⟩
  · rw [hof]
    exact validate_eq_ok_iff.2 ⟨hpos.1, hpos.2.1, hpos.2.2, rfl⟩
  · rw [hof]
    exact validate_of_zero hzero

theorem standard_restores (c : Conf) : Format.standard.Restores c.toNode := by
  refine Format.standard_restores (by simp) ?_ ?_
  · simp only [List.forall_mem_cons]
    exact ⟨by decide, by decide, by decide, by decide, by decide, by decide, by decide, nofun⟩
  · simp only [List.forall_mem_cons]
    exact ⟨.ofNat _, .ofNat _, .ofNat _, RouteLimit.written_list _, .ofOption _, .ofOption _,
      .ofOption _, nofun⟩

def awkward : Conf :=
  let limit : RouteLimit := {
    route := {
      target := Host.make "- A: 'b' # c\n\n d " none .https
      proxies := [Host.make "" (some 0) .http, Host.make "null" (some 65535) .https]
      secure := true }
    max := 1 }
  { version := 18446744073709551615, perRoute := [limit, limit], timeToLive := some 0 }

theorem ofYaml_toYaml_awkward :
    (Format.standard.Restores awkward.toNode ∧ awkward.Fits ∧
      ofYaml (awkward.toYaml .standard) .standard = .ok awkward) ∧
    let zero := { awkward with maxTotal := 0 }
    Format.standard.Restores zero.toNode ∧ zero.Fits ∧
      ∃ e, ofYaml (zero.toYaml .standard) .standard = .error e ∧ e.kind = .invalidArgument := by
  have hlimits : ∀ l ∈ awkward.perRoute, l.Fits := by
    have hlimit : ∀ l ∈ awkward.perRoute, l = awkward.perRoute[0] := by simp [awkward]
    intro l hl
    rw [hlimit l hl]
    refine ⟨⟨⟨⟨_, _, _, rfl⟩, by decide⟩, ?_⟩, by decide⟩
    intro p hp
    have hp : p = Host.make "" (some 0) .http ∨ p = Host.make "null" (some 65535) .https := by
      simpa [awkward] using hp
    rcases hp with rfl | rfl
    · exact ⟨⟨_, _, _, rfl⟩, by decide⟩
    · exact ⟨⟨_, _, _, rfl⟩, by decide⟩
  have hfits : awkward.Fits := ⟨by decide, by decide, by decide, hlimits, by decide, nofun, nofun⟩
  have hzero : { awkward with maxTotal := 0 }.Fits :=
    ⟨by decide, by decide, by decide, hlimits, by decide, nofun, nofun⟩
  refine ⟨⟨standard_restores _, hfits,
    (ofYaml_toYaml (standard_restores _) hfits).2.1 ⟨by decide, by decide, ?_⟩⟩,
    standard_restores _, hzero, (ofYaml_toYaml (standard_restores _) hzero).2.2 ?_⟩
  · simp [awkward]
  · exact fun h => absurd h.1 (by decide)

end Conf

end ConnectionPool
