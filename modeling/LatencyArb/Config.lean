import Mathlib

/-!
# Configuration (`include/llm/config.h`)

The constants of `CompileTime` and the fields of `Config` that the modelled code reads, with
their defaults. Prices, sizes and weights are exact rationals.
-/

namespace LatencyArb

namespace CompileTime

def kMaxTickAgeMs : Int := 50
def kMaxSlippageBroker : ℚ := 2
def kFIXHeartbeatS : Int := 30
def kReconnectBaseS : Int := 2
def kReconnectMaxS : Int := 60

end CompileTime

structure Config where
  fastFeed : String := "BINANCE"
  usOpenHourUtc : Int := 13
  usCloseHourUtc : Int := 20
  deribitWeightAsia : ℚ := 0.40
  binanceWeightAsia : ℚ := 0.60
  deribitWeightUs : ℚ := 0.60
  binanceWeightUs : ℚ := 0.40
  thresholdPips : ℚ := 0.5
  latencyBufferPips : ℚ := 0.2
  minProfitMarginPips : ℚ := 0.3
  maxOpenLots : Int := 1
  maxDailyLoss : ℚ := 500
  maxOrdersPerInterval : Int := 5
  intervalSeconds : Int := 60
  roundFourDecimals : Bool := true
  wsReconnectBaseS : Int := CompileTime.kReconnectBaseS
  wsReconnectMaxS : Int := CompileTime.kReconnectMaxS
  fixSenderCompId : String := "demo.icmarkets.10092442"
  fixTargetCompId : String := "cServer"
  fixPassword : String := ""
  fixAccountId : String := ""
  fixHeartbeatS : Int := CompileTime.kFIXHeartbeatS
  fixEnabled : Bool := false
  oandaToken : String := ""
  oandaAccountId : String := ""
  oandaHost : String := "api-fxpractice.oanda.com"
  ctraderSymbol : String := "XAU/USD"
  dryRun : Bool := true
  dryRunSymbol : String := "BTC/USD"
  tradeAmount : ℚ := 0.001

end LatencyArb
