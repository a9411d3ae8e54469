import EchProxy.Base

/-! # The Client Configuration (`client/src/config.rs`)

    The entries the modelled functions read, with their defaults.  Policies
    are texts the loader does not check.
-/

namespace EchProxy

/-! ## Backends -/

/-- `EchConfig`. -/
structure EchConfig where
  bootstrapDoh : Text
  policy : Text
  deriving DecidableEq

def defaultEchBootstrapDoh : Text := "https://dns.alidns.com/dns-query".toList

def defaultEchPolicy : Text := "strict".toList

/-- `EchConfig::default`. -/
def EchConfig.default : EchConfig where
  bootstrapDoh := defaultEchBootstrapDoh
  policy := defaultEchPolicy

/-- `BackendConfig`, as far as connecting goes. -/
structure BackendConfig where
  endpoint : Text
  connectAddr : Option Text
  ech : Bool
  echName : Option Text
  echBootstrapDoh : Option Text
  echPolicy : Option Text
  tlsDomain : Option Text
  caCert : Option Text
  deriving DecidableEq

namespace BackendConfig

def effectiveEchBootstrapDoh (backend : BackendConfig) (ech : EchConfig) : Text :=
  backend.echBootstrapDoh.getD ech.bootstrapDoh

def effectiveEchPolicy (backend : BackendConfig) (ech : EchConfig) : Text :=
  backend.echPolicy.getD ech.policy

end BackendConfig

/-! ## Routes -/

/-- `DomainStrategy`. -/
inductive DomainStrategy where
  | remoteForProxy
  | systemDns
  deriving DecidableEq

def defaultDomainStrategy : DomainStrategy := .remoteForProxy

/-- `RouteConfig`; the paths of the tables are read by the loader only. -/
structure RouteConfig where
  chinaIpDirect : Bool
  domainStrategy : DomainStrategy
  deriving DecidableEq

/-- `RouteConfig::default`. -/
def RouteConfig.default : RouteConfig where
  chinaIpDirect := true
  domainStrategy := defaultDomainStrategy

end EchProxy
