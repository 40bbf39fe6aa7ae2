import Perfacet.Policy.YamlConfig

/-!
# Who a bearer token belongs to

The agents of the configuration by their token. Of two agents with one token the later one
counts, as the constructor's loop writes them into a map.
-/

namespace Perfacet

/-- An agent of the configuration. -/
structure AgentCfg where
  id : String
  token : String
  level : Rank
  hasLevel : Bool
  admin : Bool
  levelName : String
  deriving DecidableEq, Repr

structure YamlIdentityStore where
  byToken : UnorderedMap String AgentCfg

namespace YamlIdentityStore

def ofAgents (agents : List AgentCfg) : YamlIdentityStore :=
  { byToken := agents.foldl (fun m a => m.insert a.token a) ∅ }

/-- The principal of a token; temporary grants are not looked at here. -/
def authenticate (store : YamlIdentityStore) (bearer : String) : Option Principal :=
  (store.byToken.lookup bearer).map fun a =>
    { agentId := a.id, level := a.level, grantBump := 0, hasLevel := a.hasLevel, admin := a.admin,
      levelName := a.levelName }

end YamlIdentityStore

end Perfacet
