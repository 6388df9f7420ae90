import Loom.Text.Slice

/-!
# Character Sets

Sets of characters that take one byte each. All of them agree with ASCII up to byte
127, so a set is known by the characters of the other bytes. Sets go by many names;
small and capital letters are the same in a name, and so are all separators.
-/

namespace Loom.Text

/-- The sets that agree with ASCII, those with characters of several bytes, and those that
    differ from it. Of the first, the characters of the bytes from 128 on are given after an
    equals sign, by code points and runs of them, and a dot for a byte that stands for nothing.
    A tilde marks a set without one. The table is unpacked when a set is first looked up. -/
def charsetTable : Thunk String :=
  .mk fun _ => Packed.unpack 23197
    "f5h9'do[:i;eG^g`gwC*#VH+@WLb0f0<|i5%9)M%J(F^d)_mi8KXv,PvG>:%Tdm(flBA6!IAExt#foP3IGjte3iCun8/B+D
Kd|>aZvP<%VFjUyt-)GXNh`je,&e!j,3IuIE4=bPPfJnww2aT#d^`.NSg/j,pN)WH=6L8#pbb0L1yY,=%>Nm[>=1CUn^533/)1H+
L8B;c=Wn(?ma!crx/9=NXCF*ej(QtR~uMa|c~u~(4HWg>n#T.KXNI''n)V!,tUv3#yX(27H(MR6Z(eOy4?asBKGfdFe-i1J~f$Cf
Cud>S+qJaO!VQBP1N,Hss/*/Ku[.@9r=j&Uu#%cIaYOjM&M|gkxkg>yoJWt'@Pq6BB:[:M@F[vYV/PTUNOuk[AZxu@qfg(DHu)0S
X,d[R/n9Mrt-oI:]+C7LrLRG1f#7.cbdEJp:=z:+kMV@V7o~9y:?xr3c?(#o&cv?r)T-0/ae@!tAN%jA^<whw[]7EUP[dIJ:$9NA
|[Ukk80QJyqb8bv3vrz/AZxM)A/gEdEC=8B9:Wnbo3M_*mj*jW-&+75AMAP0N]+STjP9w(1eZPL&g/bsj5Ai~(`;fGj,^j0Ige$v
B_FppS=-hnn`t!ML3$aE%7ePA'0+'d3LN75M[Gd%=#zccA^_6IgAPvmYc'Wk^fE58$g,82G]'bJ*5iyA./ZoYNZ)ta`p-|@r.n.8
=a3H&~(*9aC#fhq5`Sdi*@IW$HFBt|d8UO:Sw=iZ$?eQ@v[)6QU61-euK`.Q2'a$97VPx.?I>9l/=(QD!sXz^M~fNf4_0~H74^^a
w[>v4:~E.Nh4p<Zh?h+1*PDpFn$lu0=lDEXpW!XaBte?om6[qykBUu(SzaJG.t>AVRVPdxYt37a6Nyi)~GZc<`osH527)fgbtTZ;
+rnq.u>i8B:i-=C4bu7Fxs-)6V+-5yz]^-74IY#Tfi;t'<:H+u<iFe[PZH)ho0ArAq1g.!exJQr-Wd'rW.$SY+W<Gd~]VZZ-PcD^
-5/Q^,:Gewwy5iQMYkZ..c(rAY4A['-aJ)[=p--~vAAVMZyQSntIMPeZ9CkU&fN~2muj4|:KM30dVx#;-(P|K8EYg7PLl|YL_,S^
+TCc?%zHY66%Rh.C&[VvV'aHl_Jp4[,^,.ZmUHtq#99cr4HG;GW`1vM:XnG^8__1|<LaHO>=m*771[>N:%-ya78S]zd-fu;O:ut%
S%UMBTc:(/$<fIOzT[dFn)9d?rP?_74VZ&[`1U^SezHk8[#Vvz$DcHR&ue!QMV(U.Rk$c-r4,6R&W;QHvHYii@%9j@?`6;ZD[l$z
]lKgJk^74+.nDb(mvBH-lv,sOOPRJ;NGTAA!P3hI3B<*.LFzfv4dAGCE2%8,#6'dCi/2GFHq~LAGEVRQq?zoj'36O?$XgCS|cLO1
JKP_4A#c-og`z9Gwh%A~c;JP5uabq]34TFXz|O`=fhp(WX_bG=y9#*lMmb=d[O];A9,ZrBuA7mP;=?3s2I*BDDjJlalYbYwHF!vi
HF)TT;<02rHnahLNzd.Nk6L[slv(<x4S_v(oidV,7s7X':t4j~f1hlPPAR.$''ySz[gM0gj'9]~.ih=3u4.N8==qsgZ2+?GAv&KO
%?!o_o|^l@i[E!#RLLZkYC>`WV|KH'zeA8)TeQcHjRBx!<Q%Dqmk`xhpr5/R)2#lc8*N9?5|!Un[ut6I!TUy$mcdU&04tNb5p[l3
Rdyh4+V/*!p~]bPS./Cqd<%g|-hNzJ2V~L<w>#1XzTH!/SIgDGm|@[HHzb!UZ,ZG*_-S.NiFvLdK$eWgaKspt5g_,zCkgOCP2SmN
7*Vmd>w|yQ?0O_H2-Q[x/-tj$d~@^#-u'N^sub&P<=I5&@.5ZtVkIaP(E=YIH/>$?c:;HI-3N.n;fAcf4b.lKU;7|YzleS'Ql2iw
uzmIVRx$pdmz/-KKLe9_<NJVh,oxyV8uAl`vomk3sQMYp`>eL5JOh/cZa~@In]J>$~%f|fv0gV]D3HpPgr.p.o%i<'?4yN3Z/k^!
##s1]RTj$?~n/Z5sPZpOEa'YB[&l[Q^01qc8[Ov~ppk:X*+4N=6l[TKiUiEy!EtjgY'HmV9.T1Za^&7Eqnw/_w'ctiJDR-(vb<Ig
j0=,H'mH-'DL.0l%gv`6I)o>x*gPq_c4gYY<l?lD5mn;2k~;7$v*EoDGf@ZM1<0!>B@GU|3<=XIVs.z)IW/HRo;KKs_:)=@_BK6)
5h2mUE_J#=^0#@I2VK)pPW&J]dQthFddcf:N84!L`1NVmcnI,k>LI$!X$,+oiXxNi3%x4&skxikU<'NmJ>!PuIg2OzTb8T^BJAde
kE-0zg?j(FS;@+O>m8bKZ)JT~hx`[2%u1CK@+,n3drTrEsapZ;ZO<6PY0dQAKqrdnjL,0:bacw)5)yO`ucf+g:TZR+1RyM3ZMq5a
x9/!HuIU'7Gcrn2BP>JzuwYpEf]-(h^RP+vihpW=s6?2fBXAE55+z<Z<]w?qb@#;WgQd^;8z*g*X9YNo7BDVCC21lJ9#]@N@]>7'
C&gmd/ySan<[!~SE$Yq,$qOv:owt|y(.Xq3F[i2eOPPF/t;[k4'zp*/([3AjP:MZr`fet:Qk!YI~h1Mqt@sst3x!7g8@|NnupYo4
[j$2@[4~G<F)j.n'tIKTvtQgTUZ&g2*-6w:&R]CgLFTf*$yxm0)a'(MFOd(dNJ_sZ94W)q$C;i@|=)2pqlsU|xdN>7.0Z*^K617>
fDf?D`R&v5?aTyNb*2~!*>;aM4@r%R?Ki``:~@4XyoaXIby:vi?R^-;Qw%%h^'//':%6U6iq:8=J-MNZ3t*6%bI|3aCZF4qKnqV+
Ya-NMtumV_p4jtW!D4X;~IRer(AkwF]v2<Wt~CMHLD#V#_8mny[m=UZyn*h.D/pp%L4.U(3mEVLp],CqW$?twpFU_Ypw$VzGWBqn
(0r71EyU#hnAe:(R,plzuNp7)/Q/]WGpvSZfZ|~YHl1qhCO%W5b28_NyqV.B_zE=<kdk[|hgyQRh2^~%g]QVgFOz&CN^''J*v,)V
!O_0jdP>CZY0jQVFRp0oa/qv_ne3#YL.z;_:o`ZG2HT(t(4C$fJ59;jNB_wwL~-;DiqNV|j^dfN$k=mB<U8loP8!3V%NYR%Z]<@F
Zu0_k`^#>I<Nu!4[C6sZ!3E=7-)bZ/CeKE_f>7260^3?JU]ibW5Qgr8=QE/-qKU[(EXdA|B$^.u6E1r&;d]n;SePc!ZH3OpyV]Dd
(Ux%%d@dQ/2Z#.[#e*W2|]cmWgE59s,(%2R|MNX:v?e23?S*jn0r'JxuP[,&k2S~LVVgCgm5)omk($DB`@%N%bhR-)TjE?IQIHI*
mVX=uGZ+:bXb4(3^>Vua[!lxC(F(1`H8a@Mf4!ilprV&moA$=Ea~<vond;?Ue`T|J%vv)ynw#o*!:Y-Z0qxoOB@&Z@F$@#jtHl)&
w0Wru#VvPLs]XEE@gBp)6b0F/_]:i([ZFgx;*nz'YznY<rR%7+y[(2>F*dklY<SIo_I!#&2suy+1=ci/zj3BA]0aJ-4$O_|'@]SA
<;:3POm*/Z?UB|o*;H)_W?1`Y~@>&:gkKzfX&km4]-**%NU.6ruG3zclM'X^L@-W_#$GbLS(OP3&d74?r~oY1jX*bkl&G(z81DM&
9Vu7TICz5kCU,+.vIg*Q(Wdo5Z;c.AYn^(l;Qawl%|=I[7hS]Wu91Ay7f!*I@nelYedRSCG((j/boLuQ-'RVo-I,vLg0vRD4sT:J
>(XAEl*au~Lh.PAbVBS$-[%9HnhaO$E>^fEKNT<nq,YHp#E1%h2x7FCl#H#VSS3!uTrkYhGkO%.!x@,&,,wN5@B.(bpY0=gVsFPr
1(Ex?UX~107<x~N.5z7/0gIb+I&HtSbR;yv<YAF;<&]]4]P8(?^d5zUY(Hq];BS30+[4+n~yJ>ITE]0aE[%im-`kL#nx=qwW3-mv
OBsqx<@Xz'f=XRE:b^Rb3^%'nZc0t$V!s~8/4F)0Mnh[nt+NG7Q[hX[./9Sj%Afx138_(4>6&;nzSJX`q9|$cc2S54FPHc>oD1l3
ZAbmM/1~o57Eu>zhWNzN@K72Z20bkRH&jz&7VN2#b+7#%^L5?9?@Q/dV8>AWl8#uF1r439^X[XS-iNR^W^-1Wb)R<~vl[0y0Y;.=
ixa*.p*N%2$XY|H8p6A1QXm`lrQwqT;U>_bak`ThdtnX|RX0tn188]7WntM]**9f]Tp0#ifJE_)[~zG$p<[glK;1Jg>qh+e/JA!L
Nz6zsoIA:BA.8z^SSyTL-F,tE1^&@+C.CQ^8HVq:T+9~&6%^LEaR:]H6A?(v:DF/Y%yMV:nHpH'AVfh?6DccVgN_Xgtr/VflQMq4
1V1RjTs5VQ3c*[-qrh&uF3p:_UhGUTOQ;1_APhJJn'FnFz?XJJZzK%4xJ7Z^eyC]v%(gPkkf.5eCq+f|'wB%5Y1]LdKqN:7iQBEC
T^UW>;|1J8a8.#je`ukzE;oogFcbvBpUBwACcs)na/+z&jUFSdmUh:hIFS/2.-N/-_5t'e*22HBGILbxw9D;QC41T9AKT7A9X/8E
i=yhZM%wfD*f'6@WXn7l-5tU4[!`$:F[+mz`rP<&2)(uvuU&LUk<j)z/JUlPA~s-C^sRG3h3vdk<wnL>m'%AHJ%p>@qc,AB.#iVz
Nd9va<MWqzumU]NtY8+NY#*rP<^#t%YY<r5x'KJ1m-7zPqDNSD1Y-cPIC:6rQfT%BJ;1w#_m>ZMl_Mg:Xd7*h*FpIS?%<X;.^dMR
F1K'ybxd4t@PiYZ`6XI@f7RH-$Ip;B[[<(_WL@iK>iSjB8!yCBO1sU5yI&]r7SXbZ(Ep[c^'8ogaTE]<r+D#M%_uXM^7(?~&;|wP
rm8TgdIULi+#J(<Ce4(^lb7Ha@v+.Fn.8x1bk1^h.O8c<A5zX-C^LYmA4(o]:CqPuN7:APg_A)X*pQ^UyNF#mI~r4n%xbSEX'e'p
e;I^`E?%toh*Y=c89B.=m8'?1Gbt#`)[Xky2M#X<8gMCVn?2xlhF?Ls<~#a^0AfzYoY$K#q$zqJVB+^KHy@:!gzGL^2?~%4=I8C=
ZHVxX7&@/-:Uk.^1P|r)'wH0Ro47bMHEEiDih_6gOi!=fArad31ggUPmXwoa`F7:v<VQ?>y!_-(&rlkd:>Nf1v>K$8-k-Sh6eeCu
&cKsX7[kPOe;H%%%1t4-0I@r:us_VS7gdD7|)=d-iMZ'0f%xrg2M-0EO%0R2!d~2JjL||Nicb^id~^~_,uf:CO[P!bfb0wx5Td|6
ts;X1|l3r(s|]c_Sb!f[)0Mv?&.:H<=xPyQq=8$D+[Bj0ry;!@sZM4'$7m`G6$1ctwsCrFTP8N!vnTLDJh^,gGtlhp98,n02Q^Cx
bYnG%&>EU@!cOz|fwE~!@1~:z7HSK4,(Qr#)HZ/%0+qX+,;p*B.<*Rc>;z()B.rg.ZM.zhS[e+$$nfL>(yj::!S6M#<zOWBfZAae
-1uP+YXY0*Z"

structure Charset where
  /-- The characters of the bytes from 128 on. Bytes after the last of them stand
      for nothing. -/
  upper : Array (Option Char)
  hasTilde : Bool := true

inductive CharsetProblem where
  | unknown
  | wide
  | foreign

namespace Charset

def ascii : Charset := ⟨#[], true⟩

def latin : Charset :=
  ⟨(Array.range 128).map fun n => some (Char.ofNat (128 + n)), true⟩

def char? (s : Charset) (b : UInt8) : Option Char :=
  let c := Char.ofNat b.toNat
  if b < 128 then if c == '~' && !s.hasTilde then none else some c
  else s.upper.getD (b.toNat - 128) none

def hexDigit (c : Char) : Nat :=
  if c.isDigit then c.toNat - '0'.toNat else c.toNat - 'A'.toNat + 10

def codePoint (digits : String) : Nat :=
  digits.toList.foldl (fun n c => 16 * n + hexDigit c) 0

def charsOfWord (word : String) : List (Option Char) :=
  if word.toList.all (· == '.') then List.replicate word.length none
  else
    match splitOn word "-" with
    | [first, last] =>
      let n := codePoint first
      (List.range (codePoint last + 1 - n)).map fun k => some (Char.ofNat (n + k))
    | _ => [some (Char.ofNat (codePoint word))]

def ofWords (words : List String) : Charset :=
  ⟨((words.filter (· != "~")).flatMap charsOfWord).toArray, !words.contains "~"⟩

structure Row where
  name : String
  synonyms : List String
  words : List String

def rowOf? (line : String) : Option Row :=
  let words := fields line
  match words.takeWhile (· != "=") with
  | [] => none
  | name :: synonyms =>
    some ⟨name.toLower, synonyms.map String.toLower, (words.dropWhile (· != "=")).drop 1⟩

def rowsOf (part : String) : List Row :=
  (splitOn part ";").filterMap rowOf?

/-- A name in the form of the rows: small letters, one low line for each run of
    separators, none at the ends. A dot separates nothing. -/
def plainName (name : String) : String :=
  let isSeparator (c : Char) : Bool := !(c.isAlphanum || c == '.')
  let spaced := name.toList.map fun c => if isSeparator c then ' ' else c.toLower
  join "_" (fields (String.ofList spaced))

/-- The row that a name belongs to. Only a synonym may have its low lines written as
    dots, and synonyms come first. -/
def findRow? (rows : List Row) (name : String) : Option Row :=
  let undotted := replace name "." "_"
  (rows.find? fun r => r.synonyms.contains name)
    <|> (rows.find? fun r => r.synonyms.contains undotted)
    <|> (rows.find? fun r => r.name == name)

def named (name : String) : Except CharsetProblem Charset :=
  let name := plainName name
  let find? (part : String) : Option Row := findRow? (rowsOf part) name
  match splitOn charsetTable.get "#" with
  | [sets, wide, foreign] =>
    match find? sets with
    | some r => .ok (ofWords r.words)
    | none =>
      if (find? wide).isSome then .error .wide
      else if (find? foreign).isSome then .error .foreign
      else .error .unknown
  | _ => .error .unknown

end Charset

end Loom.Text
