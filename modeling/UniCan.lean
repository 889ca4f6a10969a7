import UniCan.Protoplexer.Bus
import UniCan.Protoplexer.Ownership
import UniCan.Protoplexer.Ways
import UniCan.Protoplexer.Outbox
import UniCan.Protoplexer.Inbox
import UniCan.Protoplexer.Damage
import UniCan.Protoplexer.Resend
import UniCan.Imp.Storm
import UniCan.Imp.Integrity
import UniCan.Imp.Agreement
import UniCan.Imp.Effects
import UniCan.Imp.Endings
import UniCan.Imp.Timeouts
import UniCan.Imp.Drain
import UniCan.Imp.Undisturbed
import UniCan.Imp.Bus
import UniCan.Imp.Silence
import UniCan.J1939.Pgn
import UniCan.J1939.Signal
import UniCan.Backend.SharedQueue
import UniCan.Backend.UniHal
import UniCan.App.Dictionary
import UniCan.App.DictionaryFile
import UniCan.App.Users
import UniCan.App.Manager
