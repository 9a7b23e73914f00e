import Stormnetboot.Server.Hosts

/-!
# Server configuration

The settings of the boot server as its flags give them, the checks it makes of them before it
starts, and what the rest of the server asks of them.
-/

namespace Stormnetboot.Server

open Stormnetboot.Common

/-- The settings. A socket address is its canonical text. -/
structure Config where
  listen : Text
  mgmtListen : Text
  baseUrl : Text
  registry : Option Text
  trustedKeys : List Text
  allowUnsigned : Bool
  golden : Option Text
  claim : Bool
  unknownHosts : UnknownHostPolicy
  kube : Bool
  kubeNamespace : Option Text
  printCrd : Bool
  portal : Option Text
  portalPort : UInt16
  extraCmdline : Text
  localDisk : Option Text
  deriving DecidableEq, Repr

namespace Config

/-- What a server has that is started without flags. -/
def default : Config where
  listen := "0.0.0.0:8080".toList
  mgmtListen := "0.0.0.0:9096".toList
  baseUrl := "http://boot.storm.lo:8080".toList
  registry := none
  trustedKeys := []
  allowUnsigned := false
  golden := none
  claim := false
  unknownHosts := .allow
  kube := false
  kubeNamespace := none
  printCrd := false
  portal := none
  portalPort := 4420
  extraCmdline := []
  localDisk := none

/-- The base URL without its trailing slashes. -/
def base (cfg : Config) : Text :=
  cfg.baseUrl.rdropWhile (· = '/')

/-- Whether pallet projection is configured. -/
def projectsPallets (cfg : Config) : Bool :=
  cfg.registry.isSome

/-- Whether per-host claims can actually be made. -/
def claimsEnabled (cfg : Config) : Bool :=
  cfg.claim && cfg.registry.isSome && cfg.golden.isSome

/-- Reject combinations that would fail confusingly at run time, in a build with or without the
Kubernetes client. -/
def validate (kubernetes : Bool) (cfg : Config) : Except Text Unit := do
  if cfg.claim && cfg.registry.isNone then
    throw "--claim needs --registry to claim clones from".toList
  if cfg.claim && cfg.golden.isNone then
    throw "--claim needs --golden to say what to clone".toList
  if cfg.projectsPallets && cfg.trustedKeys.isEmpty && !cfg.allowUnsigned then
    throw ("no --trusted-key configured: pass one, or --allow-unsigned to serve ".toList ++
      "a boot pallet nobody has vouched for".toList)
  if !kubernetes && (cfg.kube || cfg.printCrd) then
    throw ("this build has no Kubernetes client: rebuild with the `kubernetes` feature, ".toList ++
      "or run from --hosts-file".toList)
  if cfg.kubeNamespace.isSome && !cfg.kube then
    throw "--kube-namespace has no effect without --kube".toList
  if cfg.listen = cfg.mgmtListen then
    throw ("--listen and --mgmt-listen are both ".toList ++ cfg.listen ++
      "; the boot surface and the management surface must not share a socket".toList)

end Config

end Stormnetboot.Server
