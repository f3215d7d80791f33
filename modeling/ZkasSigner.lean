import ZkasSigner.Chat.RoundTrip
import ZkasSigner.Chat.MiningOutcome
import ZkasSigner.Chat.Difficulty
import ZkasSigner.Money.Payment
import ZkasSigner.Engine.Turns
import ZkasSigner.Engine.Tasks
import ZkasSigner.Engine.PanicLog
import ZkasSigner.PaperWallet
import ZkasSigner.Swift.Lifetime
import ZkasSigner.Js.Lifetime
import ZkasSigner.Parity
