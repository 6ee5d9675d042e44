/-! Scripts that a remote store's server carries out as one operation, where an operation needs
more than one command. -/
namespace TenantQueue.Remote.Script

/-- Each line ends the one before it, so that a script begins and ends with a line end. -/
private def ofLines (lines : List String) : String := "\n" ++ "\n".intercalate lines ++ "\n"

/-- Keys: the pending set and the registry. Arguments: score, record and tenant. -/
def push : String := ofLines [
  "redis.call(\"ZADD\", KEYS[1], ARGV[1], ARGV[2])",
  "redis.call(\"ZADD\", KEYS[2], \"NX\", 0, ARGV[3])",
  "return 1"]

/-- Key: the registry. Argument: what the keys of the pending sets begin with. -/
def pop : String := ofLines [
  "local tenants = redis.call(\"ZRANGE\", KEYS[1], 0, 0)",
  "if #tenants == 0 then",
  "    return \x7b\"empty\", \"\", \"\"\x7d",
  "end",
  "local tenant = tenants[1]",
  "local pending = ARGV[1] .. tenant",
  "local tasks = redis.call(\"ZRANGE\", pending, 0, 0)",
  "if #tasks == 0 then",
  "    redis.call(\"ZREM\", KEYS[1], tenant)",
  "    return \x7b\"retry\", tenant, \"\"\x7d",
  "end",
  "redis.call(\"ZREM\", pending, tasks[1])",
  "redis.call(\"ZINCRBY\", KEYS[1], 1, tenant)",
  "return \x7b\"ok\", tenant, tasks[1]\x7d"]

/-- Key: the registry. Argument: what the keys of the pending sets begin with. -/
def size : String := ofLines [
  "local tenants = redis.call(\"ZRANGE\", KEYS[1], 0, -1)",
  "local total = 0",
  "for _, tenant in ipairs(tenants) do",
  "    total = total + redis.call(\"ZCARD\", ARGV[1] .. tenant)",
  "end",
  "return total"]

/-- Key: the registry. Argument: the tenant. -/
def release : String := ofLines [
  "local count = tonumber(redis.call(\"ZINCRBY\", KEYS[1], -1, ARGV[1]))",
  "if count < 0 then",
  "    redis.call(\"ZADD\", KEYS[1], 0, ARGV[1])",
  "    count = 0",
  "end",
  "return count"]

end TenantQueue.Remote.Script
